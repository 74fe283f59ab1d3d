import TmsCores.Bus.Basic
import TmsCores.Bus.Memory

namespace TmsCores

/-- A bus with 64 KB of memory and 64 KB of I/O latches, which notes what the processor tells it.
Addresses wrap at 64 KB, and no access waits. -/
structure FlatBus where
  memory : Memory := .zero
  latches : Memory := .zero
  /-- The lines acknowledged, oldest first. -/
  acknowledged : List UInt8 := []
  /-- The idle state that was announced last. -/
  idle : Bool := false
  /-- The ticks of the peripheral clock so far. -/
  ticks : Nat := 0

instance : Bus FlatBus where
  read bus address := (⟨bus.memory.peek address.toUInt16, 0⟩, bus)
  write bus address value :=
    (0, { bus with memory := bus.memory.poke address.toUInt16 value })
  ioRead bus address := (⟨bus.latches.peek address.toUInt16, 0⟩, bus)
  ioWrite bus address value :=
    (0, { bus with latches := bus.latches.poke address.toUInt16 value })
  acknowledge bus line := (line, { bus with acknowledged := bus.acknowledged ++ [line] })
  idleChanged bus idle := { bus with idle := idle }
  tick bus := (none, { bus with ticks := bus.ticks + 1 })

end TmsCores
