import TmsCores.Proofs.Tms9900.Core
import TmsCores.Proofs.Tms9900.Simulation

namespace TmsCores.Tms9900

namespace Cpu

theorem setInternalBit?_programView (cpu : Cpu) (bit : UInt16) (value : Bool) :
    cpu.programView.setInternalBit? bit value =
      (cpu.setInternalBit? bit value).map programView := by
  unfold setInternalBit?
  change (if !cpu.config.onChip then none else _) = _
  split
  · rfl
  · split
    · rfl
    · rw [Option.map_map]
      refine congrArg (Option.map · _) (funext fun number => ?_)
      dsimp only [Function.comp]
      split
      · rfl
      · rfl

theorem config_setInternalBit? {cpu changed : Cpu} {bit : UInt16} {value : Bool}
    (h : cpu.setInternalBit? bit value = some changed) : changed.config = cpu.config :=
  eq_of_core (·.config) (fun _ => rfl) (core_of_setInternalBit? h)

theorem programView_overflowTrap (cpu : Cpu) :
    cpu.overflowTrap.programView = cpu.programView.overflowTrap.programView := by
  unfold overflowTrap
  change _ = programView (if cpu.config.onChip && Status.has cpu.st Status.overflowInterrupt then _
    else _)
  split
  · rfl
  · rfl

theorem config_overflowTrap (cpu : Cpu) : cpu.overflowTrap.config = cpu.config :=
  eq_of_core (·.config) (fun _ => rfl) cpu.core_overflowTrap

theorem programView_clockDecrementer (cpu : Cpu) :
    cpu.clockDecrementer.programView = cpu.programView.clockDecrementer.programView := by
  unfold clockDecrementer
  change _ = programView (if cpu.chip.decrementer.clock.1 then _ else _)
  dsimp only
  split
  · rfl
  · rfl

theorem programView_tick (cpu : Cpu) :
    cpu.tick.programView = cpu.programView.tick.programView := by
  unfold tick
  change _ = programView (if cpu.config.onChip && cpu.chip.countsTime then _ else _)
  split
  · exact programView_clockDecrementer cpu
  · rfl

theorem config_tick (cpu : Cpu) : cpu.tick.config = cpu.config :=
  eq_of_core (·.config) (fun _ => rfl) cpu.core_tick

theorem programView_drive (line : UInt8) (state : LineState) (cpu : Cpu) :
    (cpu.drive line state).programView = (cpu.programView.drive line state).programView := by
  unfold drive
  change _ = programView (if cpu.config.onChip && line == int4 then _ else _)
  split
  · dsimp only
    change _ = programView (if OnChip.countsEvents { cpu.chip with int4Level := state.isActive }
      then _ else _)
    split
    · change _ = programView (if state.isActive && !cpu.chip.int4Level &&
        OnChip.isEnabled { cpu.chip with int4Level := state.isActive } then _ else _)
      split
      · exact programView_clockDecrementer _
      · rfl
    · rfl
  · rfl

theorem config_drive (line : UInt8) (state : LineState) (cpu : Cpu) :
    (cpu.drive line state).config = cpu.config :=
  eq_of_core (·.config) (fun _ => rfl) (cpu.core_drive line state)

end Cpu

end TmsCores.Tms9900
