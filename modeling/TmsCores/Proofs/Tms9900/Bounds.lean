import TmsCores.Bus.Flat
import TmsCores.Proofs.Stepping
import TmsCores.Proofs.Tms9900.Inspection
import TmsCores.Proofs.Tms9900.Reachability

namespace TmsCores.Tms9900

/-- The question is about the first of the lines only, and not about the chip or the workspace. -/
def Path.isFirst : Path → Bool
  | .latched line | .state line => line == 0
  | .overflowInterrupt | .mid | .flagRegister | .decrementerStart | .decrementerCount => false
  | .register _ => false
  | _ => true

theorem Path.isFirst_of_mem_queryPaths :
    ∀ path ∈ Cpu.queryPaths, (Path.parse? path).any Path.isFirst = true := by
  decide +kernel

namespace Exec

variable {β : Type} (machine : Machine β)

theorem fault_require {α : Type} (found : Option α) (otherwise : α) :
    (require found otherwise machine).2.fault = (found.isNone || machine.fault) :=
  congrArg (· || machine.fault) found.not_isSome

theorem fault_readRam (offset : Nat) : (readRam offset machine).2.fault = true ↔
    machine.cpu.chip.ram.size ≤ offset ∨ machine.fault = true := by
  rw [readRam, cpu_bind, fault_require, Bool.or_eq_true, OnChip.byte?, Option.isNone_iff_eq_none,
    Array.getElem?_eq_none_iff]

theorem fault_writeRam (offset : Nat) (value : UInt8) :
    (writeRam offset value machine).2.fault = true ↔
      machine.cpu.chip.ram.size ≤ offset ∨ machine.fault = true := by
  have hwrite : (writeRam offset value machine).2.fault =
      ((machine.cpu.chip.setRam? offset value).isNone || machine.fault) :=
    fault_require machine (machine.cpu.chip.setRam? offset value) machine.cpu.chip.ram
  rw [hwrite, Bool.or_eq_true, OnChip.setRam?, Storage.isNone_set?_iff]

end Exec

namespace Cpu

/-- What holds of every processor that was made for a configuration whose status register can hold
all that instructions write to it. -/
structure IsWellFormed (config : Config) (cpu : Cpu) : Prop where
  pc_even : cpu.pc.toNat % 2 = 0
  wp_even : cpu.wp.toNat % 2 = 0
  st_masked : cpu.st &&& ~~~config.statusMask = 0
  ram_size : cpu.chip.ram.size = 256
  flags_unlatched : cpu.chip.flags &&& 0x001C = 0
  count_le_start : cpu.chip.decrementer.count ≤ cpu.chip.decrementer.start
  count_eq_zero_iff : cpu.chip.decrementer.count = 0 ↔ cpu.chip.decrementer.start = 0
  accumulated_lt_divisor : cpu.divider.accumulated < cpu.divider.divisor
  size_interrupts : cpu.interrupts.size = config.levels.toNat + 1
  /-- The lines have the levels and policies that they were made with. -/
  configs_eq : cpu.interrupts.lines.map (·.toLineConfig) = lineConfigs config
  enabled : ∀ line ∈ cpu.interrupts.lines, line.enabled = true

/-- Nothing that a part of an operation looks up is missing, and no cycles are divided by zero. -/
structure InBounds (cpu : Cpu) : Prop where
  hasRam : cpu.HasRam
  divisor : cpu.divider.divisor ≠ 0

/-- A debugger finds what it looks up: what every member of the family can be asked, and what lies
in the memory of the chip. -/
structure Answers (cpu : Cpu) : Prop where
  query : ∀ path ∈ queryPaths, cpu.query path ≠ none
  register : ∀ n < 16, ∀ {offset}, cpu.region (cpu.registerAddress (.ofNat n)) = .ram offset →
    cpu.query ("r" ++ toString n) = some (.word (cpu.chip.word offset))

theorem observe_ne_none {cpu : Cpu} (hlines : 0 < cpu.interrupts.lines.length) {question : Path}
    (hfirst : question.isFirst = true) : cpu.observe question ≠ none := by
  have hline : cpu.interrupts.line? 0 = some cpu.interrupts.lines[0] :=
    List.getElem?_eq_getElem hlines
  cases question with
  | latched line | state line =>
      obtain rfl := eq_of_beq hfirst
      rw [observe, hline]
      exact Option.some_ne_none _
  | overflowInterrupt | mid | flagRegister | decrementerStart | decrementerCount | register =>
      exact absurd hfirst nofun
  | _ => exact Option.some_ne_none _

namespace IsConsistent

variable {config : Config} {cpu : Cpu} (h : cpu.IsConsistent config)

include h

theorem isWellFormed (hmask : Status.writable &&& ~~~config.statusMask = 0) :
    cpu.IsWellFormed config where
  pc_even := h.pc_even
  wp_even := h.wp_even
  st_masked := h.st_masked hmask
  ram_size := h.ram_size
  flags_unlatched := h.flags_unlatched
  count_le_start := h.decrementer.1
  count_eq_zero_iff := h.decrementer.2
  accumulated_lt_divisor := h.inPhase
  size_interrupts := h.size_interrupts
  configs_eq := h.configs_eq
  enabled := h.allEnabled

theorem inBounds : cpu.InBounds where
  hasRam := h.ram_size
  divisor := h.inPhase.divisor_ne_zero

theorem answers : cpu.Answers where
  query path hpath := by
    obtain ⟨question, hquestion, hfirst⟩ :=
      (Option.any_eq_true _ _).mp (Path.isFirst_of_mem_queryPaths path hpath)
    have hlines : 0 < cpu.interrupts.size := h.size_interrupts ▸ Nat.succ_pos _
    rw [query, hquestion]
    exact observe_ne_none hlines hfirst
  register n hn {offset} hregion := by
    rw [query_register]
    exact (observeRegister_eq_some_iff h.ram_size h.wp_even hn).mpr ⟨offset, hregion, rfl⟩

end IsConsistent

/-- A property of processors that nothing destroys. -/
structure Lasting (P : Cpu → Prop) : Prop extends HostStable P where
  hold : ∀ {cpu}, P cpu → P { cpu with suppress := true }
  enterIdle : ∀ {cpu}, P cpu → P { cpu with idle := true }

theorem isConsistent_lasting (config : Config) : Lasting (IsConsistent config) where
  toHostStable := isConsistent_hostStable config
  hold h := { h with }
  enterIdle h := { h with }

end Cpu

theorem Machine.fault_of_perform_restore {β : Type} [Bus β] {machine next : Machine β}
    {bytes : List UInt8} {answer : Answer MissingRegister Config}
    (h : machine.perform (.restore bytes) = some (answer, next)) : next.fault = machine.fault := by
  cases hrestore : machine.cpu.restore bytes with
  | ok saved =>
      rw [perform_restore_ok hrestore] at h
      obtain ⟨_, rfl⟩ := Prod.mk.inj (Option.some.inj h)
      rfl
  | error error =>
      rw [perform_restore_error hrestore] at h
      obtain ⟨_, rfl⟩ := Prod.mk.inj (Option.some.inj h)
      rfl

/-- A processor has a property, and has noted what it has noted of its accesses. -/
def Machine.HasNoted {β : Type} (P : Cpu → Prop) (fault : Bool) (machine : Machine β) : Prop :=
  P machine.cpu ∧ machine.fault = fault

namespace Cpu.Lasting

variable {β : Type} {P : Cpu → Prop} {fault : Bool} {machine : Machine β}

variable [Bus β] (h : Lasting P) (hbounds : fault = false → ∀ {cpu}, P cpu → cpu.InBounds)

include h hbounds

theorem flagStable_noted : Machine.FlagStable (Machine.HasNoted P fault : Machine β → Prop) where
  access hmachine _ _ := hmachine
  expect hmachine hpossible := ⟨hmachine.1, Storage.noted_eq hmachine.2 fun hfault =>
    hpossible (hbounds hfault hmachine.1).hasRam⟩
  remember hmachine _ := hmachine
  evolve hmachine hevolves := ⟨hevolves P h.toFlagStable hmachine.1, hmachine.2⟩

theorem clockSimulation_noted :
    ClockSimulation (SameWith (Machine.HasNoted P fault : Machine β → Prop)) where
  tickCpu := corresponds_self_iff.mpr fun _ hmachine => ⟨h.tick hmachine.1, hmachine.2⟩
  tickBus := corresponds_self_iff.mpr fun machine hmachine => by
    rcases htick : Bus.tick machine.bus with ⟨_ | ⟨line, state⟩, bus⟩
    · rw [Exec.tickBus_of_quiet htick]
      exact hmachine
    · rw [Exec.tickBus_of_driven htick]
      exact ⟨h.drive hmachine.1 line state, hmachine.2⟩
  charge cycles := corresponds_self_iff.mpr fun _ hmachine =>
    ⟨h.advance hmachine.1 cycles, Storage.noted_eq hmachine.2 fun hfault =>
      TickDivider.isSome_divide? (hbounds hfault hmachine.1).divisor cycles⟩

theorem hostSimulation_noted :
    HostSimulation (SameWith (Machine.HasNoted P fault : Machine β → Prop)) where
  toFlagSimulation := (flagStable_noted h hbounds).simulation
  toClockSimulation := clockSimulation_noted h hbounds
  setSt st := corresponds_self_iff.mpr fun _ hmachine => ⟨h.setSt hmachine.1 st, hmachine.2⟩
  modifySt hchange := corresponds_self_iff.mpr fun _ hmachine =>
    ⟨h.modifySt hchange hmachine.1, hmachine.2⟩
  clearLeftovers := corresponds_self_iff.mpr fun _ hmachine => hmachine
  releaseInterrupts := corresponds_self_iff.mpr fun _ hmachine =>
    ⟨h.release hmachine.1, hmachine.2⟩
  leaveIdle := corresponds_self_iff.mpr fun _ hmachine => ⟨h.leaveIdle hmachine.1, hmachine.2⟩
  serviceStatus := by
    rintro m _ pending ⟨rfl, hmachine⟩ hpending
    exact corresponds_self_iff.mpr fun _ hnext =>
      ⟨h.serviceStatus hmachine.1 hpending hnext.1, hnext.2⟩
  acknowledge line := corresponds_self_iff.mpr fun _ hmachine =>
    ⟨h.acknowledge hmachine.1 line, hmachine.2⟩
  sameWait := by
    rintro m _ ⟨rfl, _⟩
    rfl
  drive line state := corresponds_self_iff.mpr fun _ hmachine =>
    ⟨h.drive hmachine.1 line state, hmachine.2⟩
  powerUp := corresponds_self_iff.mpr fun _ hmachine => ⟨h.powerUp hmachine.1, hmachine.2⟩
  endReset wait := corresponds_self_iff.mpr fun _ hmachine =>
    ⟨h.endReset hmachine.1 wait, hmachine.2⟩

theorem iterate_noted (limit : Nat) :
    Keeps (Machine.HasNoted P fault : Machine β → Prop) (Exec.iterate limit) := by
  have hsimulation := hostSimulation_noted (β := β) h hbounds
  refine corresponds_self_iff.mp (hsimulation.iterate ?_ ?_ limit)
  · exact corresponds_self_iff.mpr fun _ hmachine => ⟨h.hold hmachine.1, hmachine.2⟩
  · exact corresponds_self_iff.mpr fun _ hmachine => ⟨h.enterIdle hmachine.1, hmachine.2⟩

/-- An operation notes a miss only where something is missing, and forgets none. -/
theorem perform_noted {operation : Operation Register} {answer : Answer MissingRegister Config}
    {next : Machine β} (hmachine : machine.HasNoted P fault)
    (hperform : machine.perform operation = some (answer, next)) : next.fault = fault := by
  by_cases hblob : operation = .save ∨ ∃ bytes, operation = .restore bytes
  · rcases hblob with rfl | ⟨bytes, rfl⟩
    · obtain ⟨_, rfl⟩ := Prod.mk.inj (Option.some.inj hperform)
      exact hmachine.2
    · exact (Machine.fault_of_perform_restore hperform).trans hmachine.2
  · rw [not_or, not_exists] at hblob
    have hiterate (limit : Nat) := corresponds_self_iff.mpr (iterate_noted (β := β) h hbounds limit)
    have hsame := (hostSimulation_noted h hbounds).perform hiterate hblob.1 hblob.2 ⟨rfl, hmachine⟩
    rw [hperform] at hsame
    cases hsame with
    | some hresult => exact hresult.2.2.2

end Cpu.Lasting

namespace Machine

variable {β : Type} [Bus β] {machine next : Machine β} {operation : Operation Register}
  {answer : Answer MissingRegister Config}

theorem fault_lasts (hfault : machine.fault = true)
    (hperform : machine.perform operation = some (answer, next)) : next.fault = true := by
  have hlasting : Cpu.Lasting fun _ => True := by
    repeat' (first | constructor | intro _)
  -- Once a miss has been noted, nothing needs to be found any more.
  have hvacuous : true = false → ∀ {cpu : Cpu}, True → cpu.InBounds := nofun
  exact hlasting.perform_noted hvacuous ⟨trivial, hfault⟩ hperform

end Machine

theorem Processor.Reachable.fault_eq {config : Config} {processor : Processor}
    (h : processor.Reachable config) : processor.fault = false := by
  induction h with
  | create => rfl
  | perform hmachine _ hperform ih =>
      exact (Cpu.isConsistent_lasting config).perform_noted (fun _ _ hcpu => hcpu.inBounds)
        ⟨hmachine.isConsistent, ih⟩ hperform
  | restore _ _ hperform ih => exact (Machine.fault_of_perform_restore hperform).trans ih

/-- Whatever a host did and does, a processor is well-formed.  No part of any operation makes an
access that misses what it indexes or divides by zero, not even in a run that never ends: its
iterations begin without a fault, however many there are. -/
theorem operations_in_bounds {β : Type} [Bus β] {config : Config}
    (hmask : 0xFE0F &&& ~~~config.statusMask = 0) {machine : Machine β}
    (h : machine.Reachable config) :
    machine.cpu.IsWellFormed config ∧
      ¬(machine.cpu.idle = true ∧ machine.cpu.suppress = true) ∧
      machine.cpu.Answers ∧
      (∀ opcode, (Instruction.table machine.cpu.config.instructionSet).get? opcode ≠ none) ∧
      machine.fault = false ∧
      (∀ {operation answer} {next : Machine β},
        machine.perform operation = some (answer, next) → next.fault = false) ∧
      ∀ {budget consumed} {state : Machine β},
        RunLoop.Begins Exec.iterate budget machine consumed state →
          state.cpu.IsWellFormed config ∧ state.fault = false := by
  have hlasting := Cpu.isConsistent_lasting config
  have hmachine : machine.HasNoted (Cpu.IsConsistent config) false := ⟨h.isConsistent, h.fault_eq⟩
  have hbounds {cpu : Cpu} (hcpu : cpu.IsConsistent config) := hcpu.inBounds
  refine ⟨h.isConsistent.isWellFormed hmask, h.wakeable, h.isConsistent.answers, ?_, h.fault_eq,
    ?_, ?_⟩
  · intro opcode
    rw [Instruction.get?_table]
    exact Option.some_ne_none _
  · intro operation answer next hperform
    exact hlasting.perform_noted (fun _ _ => hbounds) hmachine hperform
  · intro budget consumed state hbegins
    have hstate := hbegins.keeps (hlasting.iterate_noted fun _ _ => hbounds) hmachine
    exact ⟨hstate.1.isWellFormed hmask, hstate.2⟩

/-- Before a division by R2, which is zero and lies in the memory of the chip. -/
def Machine.beforeZeroDivisor : Machine FlatBus :=
  let new : Machine FlatBus :=
    ⟨.ofConfig Variant.tms9995.config, { memory := Memory.zero.pokeWord 0x0200 0x0182 }⟩
  { new with cpu := ((new.cpu.setWp 0xF000).setPc 0x0200).setSt 0 }

theorem Machine.beforeZeroDivisor_reachable :
    beforeZeroDivisor.Reachable Variant.tms9995.config := by
  let new : Machine FlatBus := ⟨.ofConfig Variant.tms9995.config, beforeZeroDivisor.bus⟩
  have hnew : new.Reachable Variant.tms9995.config := .create
  exact hnew.place 0xF000 0x0200 0

/-- The division is refused without a fault.  Were the memory missing, there would be one. -/
theorem operations_in_bounds_of_zero_divisor :
    let machine := Machine.beforeZeroDivisor
    (0xFE0F : UInt16) &&& ~~~Variant.tms9995.config.statusMask = 0 ∧
      machine.Reachable Variant.tms9995.config ∧ machine.cpu.chip.ram.size = 256 ∧
      machine.cpu.query "pc" ≠ none ∧ machine.cpu.query "r2" = some (.word 0) ∧
      Status.has (Exec.step machine).2.cpu.st Status.overflow = true ∧
      (Exec.step machine).2.fault = false ∧
      (Exec.step { machine with cpu.chip.ram := #[] }).2.fault = true ∧
      ∃ consumed, 0 < consumed ∧
        RunLoop.Begins Exec.iterate 100 machine consumed (Exec.iterate 100 machine).2 ∧
        (Exec.iterate 100 machine).2.cpu.IsWellFormed Variant.tms9995.config ∧
        (Exec.iterate 100 machine).2.fault = false := by
  intro machine
  have hmask : (0xFE0F : UInt16) &&& ~~~Variant.tms9995.config.statusMask = 0 := by decide
  have hreachable : machine.Reachable Variant.tms9995.config :=
    Machine.beforeZeroDivisor_reachable
  have hregister : machine.cpu.region (machine.cpu.registerAddress 2) = .ram 4 := by
    decide +kernel
  have hword : machine.cpu.chip.word 4 = 0 := by decide +kernel
  have hrefused : Status.has (Exec.step machine).2.cpu.st Status.overflow = true := by
    decide +kernel
  have hstep (start : Machine FlatBus) : start.perform .step =
      some (.cycles (Exec.step start).1, (Exec.step start).2) := rfl
  obtain ⟨hformed, _, hanswers, _, _, hperform, hbegun⟩ := operations_in_bounds hmask hreachable
  have hshown := hanswers.register 2 (by decide) hregister
  rw [hword] at hshown
  have hstart : RunLoop.Begins Exec.iterate 100 machine 0 machine := .first (by decide)
  have hbegins := hstart.next (by decide +kernel)
  exact ⟨hmask, hreachable, hformed.ram_size, hanswers.query "pc" (by decide), hshown, hrefused,
    hperform (hstep machine), by decide +kernel, _, by decide +kernel, hbegins, hbegun hbegins⟩

end TmsCores.Tms9900
