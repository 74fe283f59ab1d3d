import TmsCores.Arithmetic.Word
import TmsCores.Interrupt.Line

namespace TmsCores

/-- What a read brings back, and the wait states that it cost. -/
structure Reading (α : Type) where
  data : α
  wait : UInt8 := 0
  deriving DecidableEq

/-- The world outside a processor: memory, an I/O space, and the devices that watch it.  A read may
change the bus, so a processor reads exactly where the chip does. -/
class Bus (β : Type) where
  read : β → UInt32 → Reading UInt8 × β
  /-- Writes a byte of memory and returns the wait states. -/
  write : β → UInt32 → UInt8 → UInt8 × β
  ioRead : β → UInt32 → Reading UInt8 × β
  /-- Writes to the I/O space and returns the wait states. -/
  ioWrite : β → UInt32 → UInt8 → UInt8 × β
  /-- Hears that the processor has taken the interrupt on a line, and returns what the device puts
  on the bus: the line's number unless it knows better. -/
  acknowledge : β → UInt8 → UInt8 × β := fun bus line => (line, bus)
  /-- Hears that the processor enters or leaves its idle state. -/
  idleChanged : β → Bool → β := fun bus _ => bus
  /-- Hears a tick of the peripheral clock, and may drive an interrupt line. -/
  tick : β → Option (UInt8 × LineState) × β := fun bus => (none, bus)

namespace Bus

/-- The sum of two counts of wait states, at most 255. -/
def addWaits (first second : UInt8) : UInt8 :=
  UInt8.ofNat (min (first.toNat + second.toNat) 255)

variable {β : Type} [Bus β]

/-- Reads two bytes of memory as a word, the more significant one first. -/
def readWord (bus : β) (address : UInt32) : Reading UInt16 × β :=
  let (hi, bus) := read bus address
  let (lo, bus) := read bus (address + 1)
  (⟨Word.ofBytes hi.data lo.data, addWaits hi.wait lo.wait⟩, bus)

/-- Writes a word as two bytes of memory, the more significant one first. -/
def writeWord (bus : β) (address : UInt32) (value : UInt16) : UInt8 × β :=
  let (first, bus) := write bus address (Word.high value)
  let (second, bus) := write bus (address + 1) (Word.low value)
  (addWaits first second, bus)

end Bus

end TmsCores
