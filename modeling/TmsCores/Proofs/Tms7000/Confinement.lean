import TmsCores.Proofs.Bus.Confinement
import TmsCores.Proofs.Tms7000.Contents
import TmsCores.Proofs.Tms7000.History

namespace TmsCores.Tms7000

variable {β : Type} [Bus β]

namespace Cpu.Stable

variable {P : Cpu → Prop} {bounds : Bus.Bounds} {B : β → Prop}

theorem registerStable_and (h : RegisterStable P) (hB : Bus.Lasting bounds B)
    (hbounds : ∀ {cpu}, P cpu → cpu.config.bounds = bounds) :
    Machine.RegisterStable fun machine : Machine β => P machine.cpu ∧ B machine.bus where
  access hmachine haccess _ := ⟨hmachine.1, hB.access hmachine.2 (hbounds hmachine.1 ▸ haccess)⟩
  evolve hmachine hevolves := ⟨hevolves P h hmachine.1, hmachine.2⟩
  expect hmachine _ := hmachine

omit [Bus β] in
theorem modifyCpu_keeps_and {change : Cpu → Cpu} (h : ∀ {cpu}, P cpu → P (change cpu)) :
    Keeps (fun machine : Machine β => P machine.cpu ∧ B machine.bus) (Exec.modifyCpu change) :=
  fun _ hmachine => ⟨h hmachine.1, hmachine.2⟩

theorem writeAt_and (h : Stable P) (hB : Bus.Lasting bounds B)
    (hbounds : ∀ {cpu}, P cpu → cpu.config.bounds = bounds) {machine : Machine β}
    {location : Location} (value : UInt8) (hmachine : P machine.cpu ∧ B machine.bus)
    (hlocation : machine.cpu.config.Reaches location) :
    P (Exec.writeAt location value machine).2.cpu ∧
      B (Exec.writeAt location value machine).2.bus := by
  have hcpu := h.toStoreStable.writeAt_keeps location value machine hmachine.1
  have hbounds := hbounds hmachine.1
  refine ⟨hcpu, ?_⟩
  cases location with
  | register | interruptControl | timerData | timerControl => exact hmachine.2
  | port number => exact hB.access hmachine.2 (.ioWrite _ value (hbounds ▸ ⟨_, hlocation, rfl⟩))
  | memory address => exact hB.access hmachine.2 (.write _ value (hbounds ▸ ⟨_, hlocation, rfl⟩))

theorem hostSimulation_and (h : Stable P) (hB : Bus.Lasting bounds B)
    (hbounds : ∀ {cpu}, P cpu → cpu.config.bounds = bounds) :
    HostSimulation (SameWith fun machine : Machine β => P machine.cpu ∧ B machine.bus) where
  toRegisterSimulation := (registerStable_and h.toRegisterStable hB hbounds).simulation
  toClockSimulation := h.toClockStable.simulation_and hB.tick
  write address value := corresponds_self_iff.mpr <| Exec.inspect_keeps fun _ hmachine =>
    writeAt_and h hB hbounds value hmachine (.address address)
  writePeripheral number value := corresponds_self_iff.mpr fun _ hmachine =>
    writeAt_and h hB hbounds value hmachine (.peripheral number)
  modifySt hchange :=
    corresponds_self_iff.mpr (modifyCpu_keeps_and fun hcpu => h.setSt hcpu (hchange _))
  clearLeftovers := corresponds_self_iff.mpr fun _ hmachine => hmachine
  interruptVector _ _ := corresponds_self_iff.mpr fun _ hmachine => hmachine
  acknowledge line := corresponds_self_iff.mpr fun _ hmachine =>
    ⟨h.acknowledge hmachine.1 line, hB.acknowledge hmachine.2 line⟩
  sameWait := by
    rintro m _ ⟨rfl, _⟩
    rfl
  setIdle idle := corresponds_self_iff.mpr fun _ hmachine =>
    ⟨h.setIdle hmachine.1 idle, hB.idleChanged hmachine.2 idle⟩
  drive line state :=
    corresponds_self_iff.mpr (modifyCpu_keeps_and fun hcpu => h.drive hcpu line state)
  powerUp := corresponds_self_iff.mpr (modifyCpu_keeps_and h.powerUp)
  write? register value := corresponds_self_iff.mpr fun machine hmachine => by
    refine ⟨h.toRegisterStable.write?_keeps (fun _ _ hcpu => h.setSt hcpu (.mask _)) machine
      hmachine.1, ?_⟩
    unfold Machine.write?
    split
    · exact hmachine.2
    · exact hmachine.2

end Cpu.Stable

/-- What lasts on the bus of a processor made for a configuration is kept by iterations. -/
theorem Exec.iterate_keeps_and {config : Config} {B : β → Prop}
    (hB : Bus.Lasting config.clamp.bounds B) (limit : Nat) :
    Keeps (fun machine : Machine β => machine.cpu.IsConsistent config ∧ B machine.bus)
      (iterate limit) := by
  have hsimulation := (Cpu.isConsistent_stable config).hostSimulation_and hB
    fun hcpu => congrArg Config.bounds hcpu.config_eq
  exact corresponds_self_iff.mp (hsimulation.iterate limit)

/-- Since some moment, no call of a processor made for a configuration has left its bounds. -/
def Machine.Confined (config : Config) (before : RecordedBus β)
    (machine : Machine (RecordedBus β)) : Prop :=
  machine.cpu.IsConsistent config ∧ before.CalledWithin config.clamp.bounds machine.bus

namespace Machine

variable {config : Config} {machine : Machine (RecordedBus β)}

theorem Confined.hostSimulation (config : Config) (before : RecordedBus β) :
    HostSimulation (SameWith (Confined config before)) :=
  (Cpu.isConsistent_stable config).hostSimulation_and
    (RecordedBus.calledWithin_lasting config.clamp.bounds before)
    fun hcpu => congrArg Config.bounds hcpu.config_eq

theorem Confined.take_keeps (config : Config) (before : RecordedBus β)
    (turn : Turn Register β) : Keeps (Confined config before) (take turn) := by
  have h := hostSimulation config before
  have hkeeps {α : Type} {x : Exec (RecordedBus β) α}
      (hx : Corresponds (SameWith (Confined config before)) x x) :=
    corresponds_self_iff.mp hx
  intro machine hmachine
  cases turn with
  | iterate limit => exact hkeeps (h.iterate limit) machine hmachine
  | drive line state => exact hkeeps (h.drive line state) machine hmachine
  | setPc pc => exact hkeeps (h.setPc pc) machine hmachine
  | write register value => exact hkeeps (h.write? register value) machine hmachine
  | read | touch => exact hmachine

theorem calledWithin_after (h : machine.cpu.IsConsistent config)
    (turns : List (Turn Register β)) :
    machine.bus.CalledWithin config.clamp.bounds (machine.after turns).bus := by
  have hconfined : (machine.after turns).Confined config machine.bus :=
    History.play_keeps (fun turn => Confined.take_keeps config machine.bus turn)
      ⟨h, machine.bus.calledWithin_refl⟩ turns
  exact hconfined.2

theorem calledWithin_perform (h : machine.cpu.IsConsistent config)
    {operation : Operation Register} {answer : Answer MissingRegister Config}
    {next : Machine (RecordedBus β)} (hperform : machine.perform operation = some (answer, next)) :
    machine.bus.CalledWithin config.clamp.bounds next.bus := by
  by_cases hrestore : ∃ bytes, operation = .restore bytes
  · obtain ⟨bytes, rfl⟩ := hrestore
    rw [bus_of_perform_restore hperform]
    exact machine.bus.calledWithin_refl
  · by_cases hreset : operation = .reset
    · subst hreset
      obtain ⟨_, rfl⟩ := Prod.mk.inj (Option.some.inj hperform)
      have hreset := corresponds_self_iff.mp (Confined.hostSimulation config machine.bus).reset
      exact (hreset machine ⟨h, machine.bus.calledWithin_refl⟩).2
    · obtain ⟨turns, rfl⟩ := exists_after_of_perform hreset
        (fun bytes hbytes => hrestore ⟨bytes, hbytes⟩) hperform
      exact calledWithin_after h turns

end Machine

namespace Exec

variable {machine : Machine β} (h : machine.cpu.config.registerCount.toNat ≤ 256) (number : UInt8)

include h

theorem read_page : read (0x0100 + number.toUInt16) machine = readPeripheral number machine := by
  rw [read, cpu_bind, Location.ofAddress_page h]
  rfl

theorem write_page (value : UInt8) :
    write (0x0100 + number.toUInt16) value machine = writePeripheral number value machine := by
  rw [write, cpu_bind, Location.ofAddress_page h]
  rfl

end Exec

open Exec in
/-- Registers, the peripheral file and memory are one address space.  What is on the chip is never
looked for on the bus; every address but those of the interrupt control and of timer 1 keeps what is
written to it, and nothing else, if what lies off the chip does; and the peripheral file is the page
at 0x0100. -/
theorem address_space_unified (config : Config) :
    (∀ {β : Type} [Bus β] {machine : Machine (RecordedBus β)}, machine.Reachable config →
      (∀ {operation answer next}, machine.perform operation = some (answer, next) →
        machine.bus.CalledWithin config.clamp.offChip next.bus) ∧
      ∀ turns, machine.bus.CalledWithin config.clamp.offChip (machine.after turns).bus) ∧
    (∀ {β : Type} [Bus β] (ram : Ram β) {machine : Machine β}, machine.Reachable config →
      ∀ {address}, address ≠ 0x0100 ∧ address ≠ 0x0102 ∧ address ≠ 0x0103 → ∀ value,
        (ram.Covers (.ofAddress config.clamp address) →
          (read address (write address value machine).2).1 = value) ∧
        ∀ {other}, ram.Covers (.ofAddress config.clamp other) → other ≠ address →
          (read other (write address value machine).2).1 = (read other machine).1) ∧
    (∀ {β : Type} [Bus β] {machine : Machine β}, machine.Reachable config → ∀ number,
      read (0x0100 + number.toUInt16) machine = readPeripheral number machine ∧
      ∀ value, write (0x0100 + number.toUInt16) value machine =
        writePeripheral number value machine) := by
  have hcount := config.registerCount_clamp.2
  refine ⟨?_, ?_, ?_⟩
  · intro β _ machine h
    have hwithin {bus : RecordedBus β}
        (hbus : machine.bus.CalledWithin config.clamp.bounds bus) :
        machine.bus.CalledWithin config.clamp.offChip bus :=
      hbus.mono (fun _ => Config.offChip_memory hcount) fun _ => Config.offChip_io
    constructor
    · exact fun hperform => hwithin (Machine.calledWithin_perform h.isConsistent hperform)
    · exact fun turns => hwithin (Machine.calledWithin_after h.isConsistent turns)
  · intro β _ ram machine h address haddress value
    have hconfig : machine.cpu.config = config.clamp := h.isConsistent.config_eq
    have hwritten : (write address value machine).2.cpu.config = config.clamp :=
      (config_write address value).trans hconfig
    have hregister : machine.cpu.config.registerCount.toNat ≤ machine.cpu.file.size := by
      rw [hconfig]
      exact Nat.le_of_eq h.isConsistent.file_size.symm
    constructor
    · intro hcovers
      rw [read_fst (hwritten.symm ▸ hcovers),
        byteAt_write hregister haddress (hconfig.symm ▸ hcovers) value, if_pos rfl]
    · intro other hcovers hother
      rw [read_fst (hwritten.symm ▸ hcovers), read_fst (hconfig.symm ▸ hcovers),
        byteAt_write hregister haddress (hconfig.symm ▸ hcovers) value, if_neg hother.symm]
  · intro β _ machine h number
    have hcount : machine.cpu.config.registerCount.toNat ≤ 256 := by
      rw [h.isConsistent.config_eq]
      exact hcount
    exact ⟨read_page hcount number, write_page hcount number⟩

open Exec in
/-- Right above a register file of 129 bytes there is memory. -/
theorem address_space_unified_above_registers :
    let config : Config := ⟨129, .trap, 16⟩
    let machine : Machine (RecordedBus FlatBus) := ⟨.ofConfig config, {}, []⟩
    let written := (write 0x0081 0x5A (write 0x0080 0xA5 machine).2).2
    machine.Reachable config ∧
      machine.bus.CalledWithin config.clamp.offChip (Exec.reset machine).2.bus ∧
      (write 0x0080 0xA5 machine).2.bus.events = [] ∧
      written.bus.events = [.write 0x0081 0x5A 0] ∧
      (read 0x0080 (write 0x0080 0xA5 machine).2).1 = 0xA5 ∧
      (read 0x0081 (write 0x0080 0xA5 machine).2).1 = (read 0x0081 machine).1 ∧
      read 0x0106 machine = readPeripheral 6 machine := by
  intro config machine written
  have hmachine : machine.Reachable config := .create
  obtain ⟨hcalls, hmemory, hpage⟩ := address_space_unified config
  have hreset : machine.perform .reset = some (.done, (Exec.reset machine).2) := rfl
  have haddress : (0x0080 : UInt16) ≠ 0x0100 ∧ (0x0080 : UInt16) ≠ 0x0102 ∧
      (0x0080 : UInt16) ≠ 0x0103 := by decide
  obtain ⟨hsame, hother⟩ := hmemory Ram.flat.recorded hmachine haddress 0xA5
  refine ⟨hmachine, (hcalls hmachine).1 hreset, by decide +kernel, by decide +kernel, hsame trivial,
    hother trivial (by decide), (hpage hmachine 6).1⟩

end TmsCores.Tms7000
