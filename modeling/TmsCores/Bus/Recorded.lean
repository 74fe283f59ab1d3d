import TmsCores.Bus.Basic
import TmsCores.Text.Hexadecimal

namespace TmsCores

/-- One call of a processor to its bus. -/
inductive BusEvent
  | read (address : UInt32) (reading : Reading UInt8)
  | write (address : UInt32) (value : UInt8) (wait : UInt8)
  | ioRead (address : UInt32) (reading : Reading UInt8)
  | ioWrite (address : UInt32) (value : UInt8) (wait : UInt8)
  | acknowledge (line : UInt8)
  | idleChanged (idle : Bool)
  | tick (driven : Option (UInt8 × LineState))
  deriving DecidableEq

namespace BusEvent

def addressDigits (address : UInt32) : List Char :=
  Hexadecimal.digits (max 4 (address.toNat.log2 / 4 + 1)) address.toNat

def transfer (letter : Char) (address : UInt32) (value : UInt8) : String :=
  String.ofList (letter :: addressDigits address ++ ':' :: Hexadecimal.digits 2 value.toNat)

/-- A call as a word of a listing.  Ticks are not listed. -/
def text? : BusEvent → Option String
  | .read address reading => some (transfer 'r' address reading.data)
  | .write address value _ => some (transfer 'w' address value)
  | .ioRead address reading => some (transfer 'i' address reading.data)
  | .ioWrite address value _ => some (transfer 'o' address value)
  | .acknowledge line => some ("ack" ++ toString line.toNat)
  | .idleChanged idle => some (if idle then "idle1" else "idle0")
  | .tick _ => none

end BusEvent

/-- A bus that keeps a record of the calls made to it. -/
structure RecordedBus (β : Type) where
  inner : β
  /-- The calls, latest first. -/
  record : List BusEvent := []

def RecordedBus.events {β : Type} (bus : RecordedBus β) : List BusEvent :=
  bus.record.reverse

instance {β : Type} [Bus β] : Bus (RecordedBus β) where
  read bus address :=
    let (reading, inner) := Bus.read bus.inner address
    (reading, ⟨inner, .read address reading :: bus.record⟩)
  write bus address value :=
    let (wait, inner) := Bus.write bus.inner address value
    (wait, ⟨inner, .write address value wait :: bus.record⟩)
  ioRead bus address :=
    let (reading, inner) := Bus.ioRead bus.inner address
    (reading, ⟨inner, .ioRead address reading :: bus.record⟩)
  ioWrite bus address value :=
    let (wait, inner) := Bus.ioWrite bus.inner address value
    (wait, ⟨inner, .ioWrite address value wait :: bus.record⟩)
  acknowledge bus line :=
    let (answer, inner) := Bus.acknowledge bus.inner line
    (answer, ⟨inner, .acknowledge line :: bus.record⟩)
  idleChanged bus idle := ⟨Bus.idleChanged bus.inner idle, .idleChanged idle :: bus.record⟩
  tick bus :=
    let (driven, inner) := Bus.tick bus.inner
    (driven, ⟨inner, .tick driven :: bus.record⟩)

end TmsCores
