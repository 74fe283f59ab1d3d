import TmsCores.Bus.Flat

namespace TmsCores

/-- A bus with plain memory: what is read is what was written last, and nothing else changes it.
Wait states, ticks and the I/O space are free. -/
class RamBus (β : Type) [Bus β] where
  memory : β → Memory
  read_data : ∀ (bus : β) address,
    (Bus.read bus address).1.data = (memory bus).peek address.toUInt16
  memory_read : ∀ (bus : β) address, memory (Bus.read bus address).2 = memory bus
  memory_write : ∀ (bus : β) address value,
    memory (Bus.write bus address value).2 = (memory bus).poke address.toUInt16 value
  memory_ioRead : ∀ (bus : β) address, memory (Bus.ioRead bus address).2 = memory bus
  memory_ioWrite : ∀ (bus : β) address value, memory (Bus.ioWrite bus address value).2 = memory bus
  memory_acknowledge : ∀ (bus : β) line, memory (Bus.acknowledge bus line).2 = memory bus
  memory_idleChanged : ∀ (bus : β) idle, memory (Bus.idleChanged bus idle) = memory bus
  memory_tick : ∀ bus : β, memory (Bus.tick bus).2 = memory bus

instance : RamBus FlatBus where
  memory bus := bus.memory
  read_data _ _ := rfl
  memory_read _ _ := rfl
  memory_write _ _ _ := rfl
  memory_ioRead _ _ := rfl
  memory_ioWrite _ _ _ := rfl
  memory_acknowledge _ _ := rfl
  memory_idleChanged _ _ := rfl
  memory_tick _ := rfl

/-- A bus with plain latches in its I/O space: what is read is what was written there last, and no
other access changes it. -/
class LatchBus (β : Type) [Bus β] where
  latches : β → Memory
  ioRead_data : ∀ (bus : β) address,
    (Bus.ioRead bus address).1.data = (latches bus).peek address.toUInt16
  latches_ioRead : ∀ (bus : β) address, latches (Bus.ioRead bus address).2 = latches bus
  latches_ioWrite : ∀ (bus : β) address value,
    latches (Bus.ioWrite bus address value).2 = (latches bus).poke address.toUInt16 value
  latches_read : ∀ (bus : β) address, latches (Bus.read bus address).2 = latches bus
  latches_write : ∀ (bus : β) address value, latches (Bus.write bus address value).2 = latches bus

instance : LatchBus FlatBus where
  latches bus := bus.latches
  ioRead_data _ _ := rfl
  latches_ioRead _ _ := rfl
  latches_ioWrite _ _ _ := rfl
  latches_read _ _ := rfl
  latches_write _ _ _ := rfl

end TmsCores
