import TmsCores.Bus.Basic
import TmsCores.Tms7000.Cpu

namespace TmsCores.Tms7000

/-- The state of a processor that lasts.  It is meaningful as long as there has been no fault. -/
structure CheckedCpu where
  cpu : Cpu
  /-- An access has missed what it indexes, or something was divided by zero. -/
  fault : Bool := false
  deriving DecidableEq

def CheckedCpu.ofVariant (variant : Variant) : CheckedCpu where
  cpu := .ofVariant variant

/-- A processor as its host holds it: the state that lasts, and what the latest operation left
behind. -/
structure Processor extends CheckedCpu where
  /-- The wait states met in the current iteration. -/
  wait : Nat := 0
  deriving DecidableEq

/-- A processor on its bus. -/
structure Machine (β : Type) extends Processor where
  bus : β

/-- A part of an operation. -/
abbrev Exec (β : Type) :=
  StateM (Machine β)

namespace Exec

variable {β : Type} [Bus β]

def cpu : Exec β Cpu :=
  return (← get).cpu

def modifyCpu (change : Cpu → Cpu) : Exec β Unit :=
  modify fun machine => { machine with cpu := change machine.cpu }

def modifySt (change : UInt8 → UInt8) : Exec β Unit :=
  modifyCpu fun cpu => { cpu with st := change cpu.st }

def setPc (pc : UInt16) : Exec β Unit :=
  modifyCpu (·.setPc pc)

def setSp (sp : UInt8) : Exec β Unit :=
  modifyCpu ({ · with sp := sp })

/-- Notes whether something can be done.  If it cannot, the processor is at fault. -/
def expect (possible : Bool) : Exec β Unit :=
  modify fun machine => { machine with fault := !possible || machine.fault }

/-- What an access has found.  When it has missed, the processor is at fault, and goes on with
`otherwise`. -/
def require {α : Type} (found : Option α) (otherwise : α) : Exec β α := do
  expect found.isSome
  return found.getD otherwise

def readFile (number : Nat) : Exec β UInt8 := do
  require ((← cpu).register? number) 0

def writeFile (number : Nat) (value : UInt8) : Exec β Unit := do
  let cpu ← cpu
  let file ← require (cpu.setFile? number value) cpu.file
  modifyCpu ({ · with file := file })

/-- An access through the bus that returns data. -/
def busRead (access : β → Reading UInt8 × β) : Exec β UInt8 := do
  let machine ← get
  let (reading, bus) := access machine.bus
  set { machine with bus := bus, wait := machine.wait + reading.wait.toNat }
  return reading.data

/-- An access through the bus that returns nothing but its wait states. -/
def busWrite (access : β → UInt8 × β) : Exec β Unit := do
  let machine ← get
  let (wait, bus) := access machine.bus
  set { machine with bus := bus, wait := machine.wait + wait.toNat }

def readAt : Location → Exec β UInt8
  | .register number => readFile number
  | .interruptControl => return (← cpu).interruptControl
  | .timerData => return (← cpu).peripherals.timer.decrementer
  | .timerControl => return (← cpu).peripherals.timer.capture
  | .port number => busRead (Bus.ioRead · number.toUInt32)
  | .memory address => busRead (Bus.read · address.toUInt32)

def writeAt (location : Location) (value : UInt8) : Exec β Unit :=
  match location with
  | .register number => writeFile number value
  | .interruptControl => modifyCpu (·.writeInterruptControl value)
  | .timerData => modifyCpu ({ · with peripherals.timer.reload := value })
  | .timerControl =>
      modifyCpu fun cpu =>
        { cpu with peripherals.timer := cpu.peripherals.timer.writeControl value }
  | .port number => busWrite (Bus.ioWrite · number.toUInt32 value)
  | .memory address => busWrite (Bus.write · address.toUInt32 value)

def read (address : UInt16) : Exec β UInt8 := do
  readAt (.ofAddress (← cpu).config address)

def write (address : UInt16) (value : UInt8) : Exec β Unit := do
  writeAt (.ofAddress (← cpu).config address) value

def readWord (address : UInt16) : Exec β UInt16 := do
  let hi ← read address
  let lo ← read (address + 1)
  return Word.ofBytes hi lo

/-- Reads a register by its number.  Numbers past the register file are memory. -/
def readRegister (number : UInt8) : Exec β UInt8 :=
  read number.toUInt16

def writeRegister (number value : UInt8) : Exec β Unit :=
  write number.toUInt16 value

def readPeripheral (number : UInt8) : Exec β UInt8 :=
  readAt (.ofPeripheral number)

def writePeripheral (number value : UInt8) : Exec β Unit :=
  writeAt (.ofPeripheral number) value

/-- Reads the register pair that ends at a register, the more significant byte first. -/
def readPair (number : UInt8) : Exec β UInt16 := do
  let hi ← readRegister (number - 1)
  let lo ← readRegister number
  return Word.ofBytes hi lo

def writePair (number : UInt8) (value : UInt16) : Exec β Unit := do
  writeRegister (number - 1) (Word.high value)
  writeRegister number (Word.low value)

def fetch : Exec β UInt8 := do
  let pc := (← cpu).pc
  let value ← read pc
  setPc (pc + 1)
  return value

def fetchWord : Exec β UInt16 := do
  let hi ← fetch
  let lo ← fetch
  return Word.ofBytes hi lo

/-- Pushes a byte.  The stack grows upwards, and the pointer moves first. -/
def push (value : UInt8) : Exec β Unit := do
  let sp := (← cpu).sp + 1
  setSp sp
  write sp.toUInt16 value

def pop : Exec β UInt8 := do
  let sp := (← cpu).sp
  let value ← read sp.toUInt16
  setSp (sp - 1)
  return value

def pushPc : Exec β Unit := do
  let pc := (← cpu).pc
  push (Word.high pc)
  push (Word.low pc)

def popPc : Exec β Unit := do
  let lo ← pop
  let hi ← pop
  setPc (Word.ofBytes hi lo)

def setIdle (idle : Bool) : Exec β Unit :=
  modify fun machine =>
    { machine with
      cpu.idle := idle
      bus := Bus.idleChanged machine.bus idle }

end Exec

end TmsCores.Tms7000
