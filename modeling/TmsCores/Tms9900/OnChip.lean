import TmsCores.Arithmetic.Word
import TmsCores.Storage

namespace TmsCores.Tms9900

inductive Region
  | ram (offset : Nat)
  /-- A byte of the decrementer, the more significant one first. -/
  | decrementer (byte : UInt16)
  | external
  deriving DecidableEq

/-- What lies behind an address on a chip with memory of its own: 252 bytes from F000 on and four
more at the top, with the decrementer below these. -/
def Region.ofAddress (address : UInt16) : Region :=
  if 0xF000 ≤ address && address ≤ 0xF0FB then .ram (address - 0xF000).toNat
  else if 0xFFFC ≤ address then .ram ((address - 0xFFFC).toNat + 0xFC)
  else if 0xFFFA ≤ address then .decrementer (address - 0xFFFA)
  else .external

/-- A counter that starts again from `start` whenever it reaches zero.  A start value of zero stops
it. -/
structure Decrementer where
  start : UInt16 := 0
  count : UInt16 := 0
  deriving DecidableEq

namespace Decrementer

def ofStart (value : UInt16) : Decrementer :=
  ⟨value, value⟩

/-- Writes one byte of the start value, the more significant one for `byte` zero. -/
def writeByte (decrementer : Decrementer) (byte : UInt16) (value : UInt8) : Decrementer :=
  if byte = 0 then
    ofStart (Word.ofBytes value (Word.low decrementer.start))
  else
    ofStart (Word.ofBytes (Word.high decrementer.start) value)

/-- Counts once, and tells whether zero was reached. -/
def clock (decrementer : Decrementer) : Bool × Decrementer :=
  if decrementer.start = 0 then (false, decrementer)
  else if decrementer.count = 1 then (true, { decrementer with count := decrementer.start })
  else (false, { decrementer with count := decrementer.count - 1 })

end Decrementer

/-- The first bit of the flag register in the I/O space. -/
def flagBase : UInt16 :=
  0x0F70

/-- The bit of the illegal-opcode flag in the I/O space. -/
def midBit : UInt16 :=
  0x0FED

def int1 : UInt8 :=
  1

def internalLine : UInt8 :=
  2

def decrementerLine : UInt8 :=
  3

/-- The line whose edges the decrementer can count. -/
def int4 : UInt8 :=
  4

/-- The number of an I/O bit in the flag register, if it lies there. -/
def flagNumber? (bit : UInt16) : Option UInt16 :=
  if flagBase ≤ bit && bit < flagBase + 16 then some (bit - flagBase) else none

/-- The line whose latch a bit of the flag register is, if it is one. -/
def latchLine? (number : UInt16) : Option UInt8 :=
  if number = 2 then some int1
  else if number = 3 then some decrementerLine
  else if number = 4 then some int4
  else none

structure OnChip where
  ram : Array UInt8 := Array.replicate 0x100 0
  decrementer : Decrementer := {}
  /-- The flag register without the bits that are interrupt latches. -/
  flags : UInt16 := 0
  /-- An illegal opcode was met. -/
  mid : Bool := false
  /-- The level seen last on INT4. -/
  int4Level : Bool := false
  deriving DecidableEq

namespace OnChip

/-- The flag that makes the decrementer count edges instead of time. -/
def eventFlag : UInt16 :=
  0x0001

def enableFlag : UInt16 :=
  0x0002

def isEnabled (chip : OnChip) : Bool :=
  chip.flags &&& enableFlag != 0

def countsEvents (chip : OnChip) : Bool :=
  chip.flags &&& eventFlag != 0

def countsTime (chip : OnChip) : Bool :=
  chip.isEnabled && !chip.countsEvents

/-- Everything but the memory and the level of INT4 is cleared. -/
def reset (chip : OnChip) : OnChip :=
  { chip with decrementer := {}, flags := 0, mid := false }

/-- A byte of the memory, if it is there. -/
def byte? (chip : OnChip) (offset : Nat) : Option UInt8 :=
  chip.ram[offset]?

def word? (chip : OnChip) (offset : Nat) : Option UInt16 := do
  return Word.ofBytes (← chip.byte? offset) (← chip.byte? (offset + 1))

/-- The memory with one byte replaced, if it is there. -/
def setRam? (chip : OnChip) (offset : Nat) (value : UInt8) : Option (Array UInt8) :=
  Storage.set? chip.ram offset value

def byte (chip : OnChip) (offset : Nat) : UInt8 :=
  (chip.byte? offset).getD 0

def setByte (chip : OnChip) (offset : Nat) (value : UInt8) : OnChip :=
  { chip with ram := (chip.setRam? offset value).getD chip.ram }

end OnChip

end TmsCores.Tms9900
