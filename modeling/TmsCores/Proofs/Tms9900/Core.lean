import TmsCores.Tms9900.Cpu

namespace TmsCores.Tms9900.Cpu

/-- The processor without what its devices have a hand in: their own state and the interrupt
lines. -/
def core (cpu : Cpu) : Cpu :=
  { cpu with
    interrupts := { lines := [], compare := .atOrBelow }
    chip := {} }

theorem eq_of_core {α : Type} (view : Cpu → α) (hview : ∀ cpu, view cpu.core = view cpu)
    {cpu changed : Cpu} (h : changed.core = cpu.core) : view changed = view cpu := by
  rw [← hview, h, hview]

variable (cpu : Cpu)

theorem core_overflowTrap : cpu.overflowTrap.core = cpu.core := by
  unfold overflowTrap
  split
  · rfl
  · rfl

theorem core_clockDecrementer : cpu.clockDecrementer.core = cpu.core := by
  unfold clockDecrementer
  dsimp only
  split
  · rfl
  · rfl

theorem core_tick : cpu.tick.core = cpu.core := by
  unfold tick
  split
  · exact core_clockDecrementer cpu
  · rfl

theorem core_drive (line : UInt8) (state : LineState) : (cpu.drive line state).core = cpu.core := by
  unfold drive
  split
  · dsimp only
    split
    · split
      · exact core_clockDecrementer _
      · rfl
    · rfl
  · rfl

theorem core_of_setInternalBit? {cpu changed : Cpu} {bit : UInt16} {value : Bool}
    (h : cpu.setInternalBit? bit value = some changed) : changed.core = cpu.core := by
  unfold setInternalBit? at h
  split at h
  · exact absurd h nofun
  · split at h
    · obtain rfl := Option.some.inj h
      rfl
    · obtain ⟨number, _, rfl⟩ := Option.map_eq_some_iff.mp h
      dsimp only
      split
      · rfl
      · rfl

end TmsCores.Tms9900.Cpu
