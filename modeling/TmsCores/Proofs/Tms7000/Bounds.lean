import TmsCores.Bus.Flat
import TmsCores.Proofs.Stepping
import TmsCores.Proofs.Tms7000.Eligibility
import TmsCores.Proofs.Tms7000.Reachability

namespace TmsCores.Tms7000

theorem PeripheralFile.isEnabled_eq (file : PeripheralFile) {line : UInt8}
    (hline : line ∈ inputLines) :
    file.isEnabled line = (file.control &&& (1 <<< (2 * line)) != 0) := by
  have hbits : ∀ line ∈ inputLines, enableBits &&& enableBit line = 1 <<< (2 * line) := by
    decide +kernel
  rw [isEnabled, UInt8.and_assoc, hbits line hline]

/-- Of registers and lines, the question is only about the first. -/
def Path.isFirst : Path → Bool
  | .register number => number == 0
  | .latched line | .enabled line => line == 0
  | _ => true

theorem Path.isFirst_of_mem_queryPaths :
    ∀ path ∈ Cpu.queryPaths, (Path.parse? path).any Path.isFirst = true := by
  decide +kernel

namespace Exec

variable {β : Type} (machine : Machine β)

theorem fault_require {α : Type} (found : Option α) (otherwise : α) :
    (require found otherwise machine).2.fault = (found.isNone || machine.fault) :=
  congrArg (· || machine.fault) found.not_isSome

theorem fault_readFile (number : Nat) : (readFile number machine).2.fault = true ↔
    machine.cpu.file.size ≤ number ∨ machine.fault = true := by
  rw [readFile, cpu_bind, fault_require, Bool.or_eq_true, Cpu.register?, Option.isNone_iff_eq_none,
    Array.getElem?_eq_none_iff]

theorem fault_writeFile (number : Nat) (value : UInt8) :
    (writeFile number value machine).2.fault = true ↔
      machine.cpu.file.size ≤ number ∨ machine.fault = true := by
  have hwrite : (writeFile number value machine).2.fault =
      ((machine.cpu.setFile? number value).isNone || machine.fault) :=
    fault_require machine (machine.cpu.setFile? number value) machine.cpu.file
  rw [hwrite, Bool.or_eq_true, Cpu.setFile?, Storage.isNone_set?_iff]

end Exec

namespace Cpu

/-- What holds of every processor, whatever it was made for. -/
structure IsWellFormed (cpu : Cpu) : Prop where
  file_size : cpu.file.size = cpu.config.registerCount.toNat
  two_le_registerCount : 2 ≤ cpu.config.registerCount.toNat
  registerCount_le : cpu.config.registerCount.toNat ≤ 256
  st_low : cpu.st &&& 0x0F = 0
  control_unflagged : cpu.peripherals.control &&& 0x2A = 0
  /-- Each line is enabled in the controller if and only if its bit in IOCNT0 is set. -/
  enabled_eq : ∀ line < 3, cpu.interrupts.isEnabled line =
    (cpu.peripherals.control &&& (1 <<< (2 * line)) != 0)
  prescaler_le : cpu.peripherals.timer.prescaler ≤ 31
  accumulated_lt_divisor : cpu.divider.accumulated < cpu.divider.divisor
  configs_eq : cpu.interrupts.lines.map (·.toLineConfig) =
    [⟨1, true, .edgeLatched⟩, ⟨2, true, .edgeLatched⟩, ⟨3, true, .edgeLatched⟩]

/-- Nothing that a part of an operation looks up is missing, and no cycles are divided by zero. -/
structure InBounds (cpu : Cpu) : Prop where
  hasFile : cpu.HasFile
  vector : ∀ {pending}, cpu.pending = some pending →
    pending.line.toNat < Exec.interruptVectors.size
  divisor : cpu.divider.divisor ≠ 0

theorem readByte?_eq_ok {cpu : Cpu} (register : Register) {number : Nat} {value : UInt8}
    (h : cpu.register? number = some value) :
    cpu.readByte? register number = .ok value.toUInt16 := by
  rw [readByte?, h]

theorem writeByte?_ok {cpu : Cpu} (register : Register) {number : Nat}
    (h : number < cpu.file.size) (value : UInt8) :
    ∃ changed, cpu.writeByte? register number value = .ok changed := by
  rw [writeByte?, setFile?, Storage.set?, dif_pos h]
  exact ⟨_, rfl⟩

/-- A host finds what it looks up by itself. -/
structure Answers (cpu : Cpu) : Prop where
  accumulators : cpu.register? 0 = some cpu.a ∧ cpu.register? 1 = some cpu.b
  read : ∀ register, (∀ number, register ≠ .r number) → ∃ value, cpu.read? register = .ok value
  write : ∀ register value, (∀ number, register ≠ .r number) →
    ∃ changed, cpu.write? register value = .ok changed
  query : ∀ path ∈ queryPaths, cpu.query path ≠ none

namespace IsConsistent

variable {config : Config} {cpu : Cpu} (h : cpu.IsConsistent config)

include h

theorem isWellFormed : cpu.IsWellFormed := by
  obtain ⟨hlow, hhigh⟩ := config.registerCount_clamp
  constructor
  case file_size => rw [h.config_eq, h.file_size]
  case two_le_registerCount => rwa [h.config_eq]
  case registerCount_le => rwa [h.config_eq]
  case st_low => exact h.st_stored
  case control_unflagged => exact h.control_unflagged
  case enabled_eq =>
    intro line hline
    have hinput := mem_inputLines_iff.mpr (UInt8.lt_iff_toNat_lt.mp hline)
    rw [h.enables_synced line hinput, PeripheralFile.isEnabled_eq _ hinput]
  case prescaler_le => exact h.timer
  case accumulated_lt_divisor => exact h.inPhase
  case configs_eq => exact h.configs_eq

theorem hasFile : cpu.HasFile where
  size_eq := by rw [h.config_eq, h.file_size]
  two_le_size := h.file_size ▸ config.registerCount_clamp.1

theorem inBounds : cpu.InBounds where
  hasFile := h.hasFile
  vector hpending := by
    have hforemost := (h.pending_eq_some_iff.mp hpending).1
    exact mem_inputLines_iff.mp (h.mem_inputLines hforemost.1)
  divisor := h.inPhase.divisor_ne_zero

end IsConsistent

namespace HasFile

variable {cpu : Cpu} (h : cpu.HasFile)

include h

theorem register?_accumulator (accumulator : Accumulator) :
    cpu.register? accumulator.number.toNat = some (cpu.register accumulator.number.toNat) := by
  rw [register, register?, Array.getElem?_eq_getElem (h.accumulator_lt accumulator)]
  rfl

theorem read?_ok {register : Register} (hregister : ∀ number, register ≠ .r number) :
    ∃ value, cpu.read? register = .ok value := by
  cases register with
  | pc => exact ⟨_, rfl⟩
  | sp => exact ⟨_, rfl⟩
  | st => exact ⟨_, rfl⟩
  | a => exact ⟨_, readByte?_eq_ok .a (h.register?_accumulator .a)⟩
  | b => exact ⟨_, readByte?_eq_ok .b (h.register?_accumulator .b)⟩
  | r number => exact absurd rfl (hregister number)

theorem write?_ok {register : Register} (hregister : ∀ number, register ≠ .r number)
    (value : UInt16) : ∃ changed, cpu.write? register value = .ok changed := by
  cases register with
  | pc => exact ⟨_, rfl⟩
  | sp => exact ⟨_, rfl⟩
  | st => exact ⟨_, rfl⟩
  | a => exact writeByte?_ok .a (h.accumulator_lt .a) value.toUInt8
  | b => exact writeByte?_ok .b (h.accumulator_lt .b) value.toUInt8
  | r number => exact absurd rfl (hregister number)

theorem observe_ne_none (hlines : 0 < cpu.interrupts.lines.length) {question : Path}
    (hfirst : question.isFirst = true) : cpu.observe question ≠ none := by
  have hfound (accumulator : Accumulator) :
      (cpu.register? accumulator.number.toNat).map Observation.byte ≠ none := by
    rw [h.register?_accumulator accumulator]
    exact Option.some_ne_none _
  have hline : cpu.interrupts.line? 0 = some cpu.interrupts.lines[0] :=
    List.getElem?_eq_getElem hlines
  cases question with
  | a => exact hfound .a
  | b => exact hfound .b
  | register number =>
      obtain rfl := eq_of_beq hfirst
      exact hfound .a
  | latched line | enabled line =>
      obtain rfl := eq_of_beq hfirst
      rw [observe, hline]
      exact Option.some_ne_none _
  | _ => exact Option.some_ne_none _

end HasFile

theorem IsConsistent.answers {config : Config} {cpu : Cpu} (h : cpu.IsConsistent config) :
    cpu.Answers where
  accumulators := ⟨h.hasFile.register?_accumulator .a, h.hasFile.register?_accumulator .b⟩
  read _ hregister := h.hasFile.read?_ok hregister
  write _ value hregister := h.hasFile.write?_ok hregister value
  query path hpath := by
    obtain ⟨question, hquestion, hfirst⟩ :=
      (Option.any_eq_true _ _).mp (Path.isFirst_of_mem_queryPaths path hpath)
    rw [query, hquestion]
    have hlines : 0 < cpu.interrupts.size := h.size_interrupts ▸ by decide
    exact h.hasFile.observe_ne_none hlines hfirst

end Cpu

theorem Machine.fault_of_perform_restore {β : Type} [Bus β] {machine next : Machine β}
    {bytes : List UInt8} {answer : Answer MissingRegister Config}
    (h : machine.perform (.restore bytes) = some (answer, next)) : next.fault = machine.fault := by
  cases hrestore : machine.cpu.restore bytes with
  | ok saved =>
      rw [perform_restore_ok hrestore] at h
      obtain ⟨_, rfl⟩ := Prod.mk.inj (Option.some.inj h)
      rfl
  | error error =>
      rw [perform_restore_error hrestore] at h
      obtain ⟨_, rfl⟩ := Prod.mk.inj (Option.some.inj h)
      rfl

/-- A processor has a property, and has noted what it has noted of its accesses. -/
def Machine.HasNoted {β : Type} (P : Cpu → Prop) (fault : Bool) (machine : Machine β) : Prop :=
  P machine.cpu ∧ machine.fault = fault

namespace Cpu.Stable

variable {β : Type} {P : Cpu → Prop} {fault : Bool} {machine : Machine β}

variable [Bus β] (h : Stable P) (hbounds : fault = false → ∀ {cpu}, P cpu → cpu.InBounds)

include h hbounds

theorem registerStable_noted :
    Machine.RegisterStable (Machine.HasNoted P fault : Machine β → Prop) where
  access hmachine _ _ := hmachine
  evolve hmachine hevolves := ⟨hevolves P h.toRegisterStable hmachine.1, hmachine.2⟩
  expect hmachine hpossible := ⟨hmachine.1, Storage.noted_eq hmachine.2 fun hfault =>
    hpossible (hbounds hfault hmachine.1).hasFile⟩

theorem writeAt_noted {location : Location} (value : UInt8)
    (hmachine : machine.HasNoted P fault) (hlocation : machine.cpu.config.Reaches location) :
    (Exec.writeAt location value machine).2.HasNoted P fault := by
  cases location with
  | register number =>
      exact (registerStable_noted h hbounds).writeFile value hmachine fun hfile =>
        hfile.lt_of_reaches hlocation
  | interruptControl => exact ⟨h.writeInterruptControl hmachine.1 value, hmachine.2⟩
  | timerData => exact ⟨h.setReload hmachine.1 value, hmachine.2⟩
  | timerControl => exact ⟨h.writeTimerControl hmachine.1 value, hmachine.2⟩
  | port | memory => exact hmachine

theorem clockSimulation_noted :
    ClockSimulation (SameWith (Machine.HasNoted P fault : Machine β → Prop)) where
  clockTimer := corresponds_self_iff.mpr fun _ hmachine => ⟨h.clockTimer hmachine.1, hmachine.2⟩
  tickBus := corresponds_self_iff.mpr fun machine hmachine => by
    rcases htick : Bus.tick machine.bus with ⟨_ | ⟨line, state⟩, bus⟩
    · rw [Exec.tickBus_of_quiet htick]
      exact hmachine
    · rw [Exec.tickBus_of_driven htick]
      exact ⟨h.drive hmachine.1 line state, hmachine.2⟩
  charge cycles := corresponds_self_iff.mpr fun _ hmachine =>
    ⟨h.advance hmachine.1 cycles, Storage.noted_eq hmachine.2 fun hfault =>
      TickDivider.isSome_divide? (hbounds hfault hmachine.1).divisor cycles⟩

theorem hostSimulation_noted :
    HostSimulation (SameWith (Machine.HasNoted P fault : Machine β → Prop)) where
  toRegisterSimulation := (registerStable_noted h hbounds).simulation
  toClockSimulation := clockSimulation_noted h hbounds
  write address value := corresponds_self_iff.mpr <| Exec.inspect_keeps fun _ hmachine =>
    writeAt_noted h hbounds value hmachine (.address address)
  writePeripheral number value := corresponds_self_iff.mpr fun _ hmachine =>
    writeAt_noted h hbounds value hmachine (.peripheral number)
  modifySt hchange := corresponds_self_iff.mpr fun _ hmachine =>
    ⟨h.setSt hmachine.1 (hchange _), hmachine.2⟩
  clearLeftovers := corresponds_self_iff.mpr fun _ hmachine => hmachine
  interruptVector := by
    rintro m _ pending ⟨rfl, hmachine⟩ hpending
    exact corresponds_self_iff.mpr fun _ hnext => ⟨hnext.1, Storage.noted_eq hnext.2 fun hfault =>
      Storage.isSome_getElem? ((hbounds hfault hmachine.1).vector hpending)⟩
  acknowledge line := corresponds_self_iff.mpr fun _ hmachine =>
    ⟨h.acknowledge hmachine.1 line, hmachine.2⟩
  sameWait := by
    rintro m _ ⟨rfl, _⟩
    rfl
  setIdle idle := corresponds_self_iff.mpr fun _ hmachine =>
    ⟨h.setIdle hmachine.1 idle, hmachine.2⟩
  drive line state := corresponds_self_iff.mpr fun _ hmachine =>
    ⟨h.drive hmachine.1 line state, hmachine.2⟩
  powerUp := corresponds_self_iff.mpr fun _ hmachine => ⟨h.powerUp hmachine.1, hmachine.2⟩
  write? register value := corresponds_self_iff.mpr fun machine hmachine => by
    refine ⟨h.toRegisterStable.write?_keeps (fun _ _ hcpu => h.setSt hcpu (.mask _)) machine
      hmachine.1, ?_⟩
    unfold Machine.write?
    split
    · exact hmachine.2
    · exact hmachine.2

theorem iterate_noted (limit : Nat) :
    Keeps (Machine.HasNoted P fault : Machine β → Prop) (Exec.iterate limit) :=
  corresponds_self_iff.mp ((hostSimulation_noted h hbounds).iterate limit)

/-- An operation notes a miss only where something is missing, and forgets none. -/
theorem perform_noted {operation : Operation Register} {answer : Answer MissingRegister Config}
    {next : Machine β} (hmachine : machine.HasNoted P fault)
    (hperform : machine.perform operation = some (answer, next)) : next.fault = fault := by
  by_cases hblob : operation = .save ∨ ∃ bytes, operation = .restore bytes
  · rcases hblob with rfl | ⟨bytes, rfl⟩
    · obtain ⟨_, rfl⟩ := Prod.mk.inj (Option.some.inj hperform)
      exact hmachine.2
    · exact (Machine.fault_of_perform_restore hperform).trans hmachine.2
  · rw [not_or, not_exists] at hblob
    have hsame := (hostSimulation_noted h hbounds).perform hblob.1 hblob.2 ⟨rfl, hmachine⟩
    rw [hperform] at hsame
    cases hsame with
    | some hresult => exact hresult.2.2.2

end Cpu.Stable

namespace Machine

variable {β : Type} [Bus β] {machine next : Machine β} {operation : Operation Register}
  {answer : Answer MissingRegister Config}

theorem fault_lasts (hfault : machine.fault = true)
    (hperform : machine.perform operation = some (answer, next)) : next.fault = true := by
  have hstable : Cpu.Stable fun _ => True := by
    repeat' (first | constructor | intro _)
  -- Once a miss has been noted, nothing needs to be found any more.
  have hvacuous : true = false → ∀ {cpu : Cpu}, True → cpu.InBounds := nofun
  exact hstable.perform_noted hvacuous ⟨trivial, hfault⟩ hperform

end Machine

theorem Processor.Reachable.fault_eq {config : Config} {processor : Processor}
    (h : processor.Reachable config) : processor.fault = false := by
  induction h with
  | create => rfl
  | perform hmachine _ hperform ih =>
      exact (Cpu.isConsistent_stable config).perform_noted (fun _ _ hcpu => hcpu.inBounds)
        ⟨hmachine.isConsistent, ih⟩ hperform
  | restore _ _ hperform ih => exact (Machine.fault_of_perform_restore hperform).trans ih

/-- Whatever a host did and does, a processor is well-formed.  No part of any operation makes an
access that misses what it indexes or divides by zero, not even in a run that never ends: its
iterations begin without a fault, however many there are. -/
theorem accesses_in_bounds {β : Type} [Bus β] {config : Config} {machine : Machine β}
    (h : machine.Reachable config) :
    machine.cpu.config = config.clamp ∧ machine.cpu.IsWellFormed ∧ machine.cpu.Answers ∧
      (∀ opcode, Instruction.table.get? opcode ≠ none) ∧
      machine.fault = false ∧
      (∀ {operation answer} {next : Machine β},
        machine.perform operation = some (answer, next) → next.fault = false) ∧
      ∀ {budget consumed} {state : Machine β},
        RunLoop.Begins Exec.iterate budget machine consumed state →
          state.cpu.IsWellFormed ∧ state.fault = false := by
  have hstable := Cpu.isConsistent_stable config
  have hmachine : machine.HasNoted (Cpu.IsConsistent config) false := ⟨h.isConsistent, h.fault_eq⟩
  have hbounds {cpu : Cpu} (hcpu : cpu.IsConsistent config) := hcpu.inBounds
  refine ⟨h.isConsistent.config_eq, h.isConsistent.isWellFormed, h.isConsistent.answers, ?_,
    h.fault_eq, ?_, ?_⟩
  · intro opcode
    rw [Instruction.get?_table]
    exact Option.some_ne_none _
  · intro operation answer next hperform
    exact hstable.perform_noted (fun _ _ => hbounds) hmachine hperform
  · intro budget consumed state hbegins
    have hstate := hbegins.keeps (hstable.iterate_noted fun _ _ => hbounds) hmachine
    exact ⟨hstate.1.isWellFormed, hstate.2⟩

/-- A register file that was asked for with no bytes has two, and an instruction that lies there is
executed without a fault.  Were they missing, there would be one. -/
theorem accesses_in_bounds_of_no_registers :
    let config : Config := ⟨0, .trap, 0⟩
    let machine : Machine FlatBus := (Exec.reset ⟨.ofConfig config, {}⟩).2
    let broken := { machine with cpu.file := #[] }
    machine.Reachable config ∧ machine.cpu.file.size = 2 ∧ machine.cpu.query "b" ≠ none ∧
      (Exec.step machine).2.fault = false ∧ (Exec.step broken).2.fault = true ∧
      ∃ consumed, 0 < consumed ∧
        RunLoop.Begins Exec.iterate 20 machine consumed (Exec.iterate 20 machine).2 ∧
        (Exec.iterate 20 machine).2.cpu.IsWellFormed ∧
        (Exec.iterate 20 machine).2.fault = false := by
  intro config machine broken
  let new : Machine FlatBus := ⟨.ofConfig config, {}⟩
  have hnew : new.Reachable config := .create
  have hreset : new.perform .reset = some (.done, (Exec.reset new).2) := rfl
  have hreachable : machine.Reachable config := hnew.perform (by nofun) hreset
  obtain ⟨hconfig, hformed, hanswers, _, _, hperform, hbegun⟩ := accesses_in_bounds hreachable
  have hsize : machine.cpu.file.size = 2 := by
    rw [hformed.file_size, hconfig]
    rfl
  have hstep : machine.perform .step =
      some (.cycles (Exec.step machine).1, (Exec.step machine).2) := rfl
  have hstart : RunLoop.Begins Exec.iterate 20 machine 0 machine := .first (by decide)
  have hbegins := hstart.next (by decide +kernel)
  exact ⟨hreachable, hsize, hanswers.query "b" (by decide), hperform hstep, by decide +kernel,
    _, by decide +kernel, hbegins, hbegun hbegins⟩

end TmsCores.Tms7000
