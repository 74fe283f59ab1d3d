import TmsCores.Bus.Basic
import TmsCores.Tms9900.Cpu

namespace TmsCores.Tms9900

/-- The state of a processor that lasts.  It is meaningful as long as there has been no fault. -/
structure CheckedCpu where
  cpu : Cpu
  /-- An access has missed what it indexes, or something was divided by zero. -/
  fault : Bool := false
  deriving DecidableEq

def CheckedCpu.ofVariant (variant : Variant) : CheckedCpu where
  cpu := .ofVariant variant

/-- A processor as its host holds it: the state that lasts, and what the latest operation left
behind. -/
structure Processor extends CheckedCpu where
  /-- The wait states met in the current iteration. -/
  wait : Nat := 0
  /-- The address and contents of the word that the latest byte operand was read from on a 16-bit
  bus.  Writing a byte of this word does not read it again. -/
  operandWord : Option (UInt16 × UInt16) := none
  deriving DecidableEq

/-- A processor on its bus. -/
structure Machine (β : Type) extends Processor where
  bus : β

/-- A part of an operation. -/
abbrev Exec (β : Type) :=
  StateM (Machine β)

namespace Exec

variable {β : Type} [Bus β]

def cpu : Exec β Cpu :=
  return (← get).cpu

def modifyCpu (change : Cpu → Cpu) : Exec β Unit :=
  modify fun machine => { machine with cpu := change machine.cpu }

def modifySt (change : UInt16 → UInt16) : Exec β Unit :=
  modifyCpu fun cpu => { cpu with st := change cpu.st }

/-- Notes whether something can be done.  If it cannot, the processor is at fault. -/
def expect (possible : Bool) : Exec β Unit :=
  modify fun machine => { machine with fault := !possible || machine.fault }

/-- What an access has found.  When it has missed, the processor is at fault, and goes on with
`otherwise`. -/
def require {α : Type} (found : Option α) (otherwise : α) : Exec β α := do
  expect found.isSome
  return found.getD otherwise

/-- Reads a byte of the memory of the chip. -/
def readRam (offset : Nat) : Exec β UInt8 := do
  require ((← cpu).chip.byte? offset) 0

def writeRam (offset : Nat) (value : UInt8) : Exec β Unit := do
  let chip := (← cpu).chip
  let ram ← require (chip.setRam? offset value) chip.ram
  modifyCpu ({ · with chip.ram := ram })

def busRead (address : UInt16) : Exec β UInt8 := do
  let machine ← get
  let config := machine.cpu.config
  let (reading, bus) := Bus.read machine.bus (address &&& config.addressMask).toUInt32
  set { machine with
    bus := bus
    wait := machine.wait + (reading.wait.toNat + config.byteAccessCycles.toNat) }
  return reading.data

def busWrite (address : UInt16) (value : UInt8) : Exec β Unit := do
  let machine ← get
  let config := machine.cpu.config
  let (wait, bus) := Bus.write machine.bus (address &&& config.addressMask).toUInt32 value
  set { machine with
    bus := bus
    wait := machine.wait + (wait.toNat + config.byteAccessCycles.toNat) }

/-- Remembers the word that a byte operand was read from, or forgets it. -/
def setOperandWord (operandWord : Option (UInt16 × UInt16)) : Exec β Unit :=
  modify ({ · with operandWord := operandWord })

/-- Reads a word.  The lowest bit of the address is ignored. -/
def readWord (address : UInt16) : Exec β UInt16 := do
  let address := Word.even address
  let cpu ← cpu
  match cpu.region address with
  | .ram offset => do
      let hi ← readRam offset
      let lo ← readRam (offset + 1)
      return Word.ofBytes hi lo
  | .decrementer _ => return cpu.chip.decrementer.count
  | .external => do
      let hi ← busRead address
      let lo ← busRead (address ||| 1)
      return Word.ofBytes hi lo

/-- Writes a word.  The lowest bit of the address is ignored. -/
def writeWord (address value : UInt16) : Exec β Unit := do
  let address := Word.even address
  setOperandWord none
  match (← cpu).region address with
  | .ram offset => do
      writeRam offset (Word.high value)
      writeRam (offset + 1) (Word.low value)
  | .decrementer _ => modifyCpu ({ · with chip.decrementer := .ofStart value })
  | .external => do
      busWrite address (Word.high value)
      busWrite (address ||| 1) (Word.low value)

/-- The byte of a word that an address selects, the more significant one for an even address. -/
def selectByte (address word : UInt16) : UInt8 :=
  if address &&& 1 = 0 then Word.high word else Word.low word

def replaceByte (address word : UInt16) (value : UInt8) : UInt16 :=
  if address &&& 1 = 0 then Word.ofBytes value (Word.low word)
  else Word.ofBytes (Word.high word) value

def readByte (address : UInt16) : Exec β UInt8 := do
  let cpu ← cpu
  match cpu.region address with
  | .ram offset => readRam offset
  | .decrementer byte => do
      expect (byte < 2)
      return selectByte byte cpu.chip.decrementer.count
  | .external =>
      match cpu.config.dataBus with
      | .byte => busRead address
      | .word => do
          let word ← readWord address
          setOperandWord (some (Word.even address, word))
          return selectByte address word

/-- The word at an even address: the one remembered from a byte operand, or what memory holds. -/
def recallWord (address : UInt16) : Exec β UInt16 := do
  match (← get).operandWord with
  | some (remembered, word) => if remembered = address then return word else readWord address
  | none => readWord address

def writeByte (address : UInt16) (value : UInt8) : Exec β Unit := do
  let cpu ← cpu
  match cpu.region address with
  | .ram offset => writeRam offset value
  | .decrementer byte =>
      modifyCpu fun cpu =>
        { cpu with chip.decrementer := cpu.chip.decrementer.writeByte byte value }
  | .external =>
      match cpu.config.dataBus with
      | .byte => busWrite address value
      | .word => do
          let word ← recallWord (Word.even address)
          writeWord (Word.even address) (replaceByte address word value)

/-- Reads an operand.  A byte comes back in the lower half of the word. -/
def readOperand (address : UInt16) : Width → Exec β UInt16
  | .byte => return (← readByte address).toUInt16
  | .word => readWord address

/-- Writes an operand.  Only the lower half is used for a byte. -/
def writeOperand (address : UInt16) (width : Width) (value : UInt16) : Exec β Unit :=
  match width with
  | .byte => writeByte address (Word.low value)
  | .word => writeWord address value

def readRegister (number : UInt16) : Exec β UInt16 := do
  readWord ((← cpu).registerAddress number)

def writeRegister (number value : UInt16) : Exec β Unit := do
  writeWord ((← cpu).registerAddress number) value

def fetch : Exec β UInt16 := do
  let value ← readWord (← cpu).pc
  modifyCpu (·.skip 1)
  return value

/-- Takes workspace and program counter from a vector, and saves the old ones and the status
register in R13 to R15 of the new workspace. -/
def contextSwitch (vector : UInt16) : Exec β Unit := do
  let wp ← readWord vector
  let pc ← readWord (vector + 2)
  let old ← cpu
  modifyCpu (·.setWp wp)
  writeRegister 13 old.wp
  writeRegister 14 old.pc
  writeRegister 15 old.st
  modifyCpu (·.setPc pc)

/-- The bit of the I/O space that R12 points to. -/
def cruBase : Exec β UInt16 := do
  return ((← readRegister 12) >>> 1) &&& 0x0FFF

def cruRead (bit : UInt16) : Exec β Bool := do
  let bit := bit &&& 0x0FFF
  let machine ← get
  match machine.cpu.internalBit? bit with
  | some value => return value
  | none =>
      let (reading, bus) := Bus.ioRead machine.bus bit.toUInt32
      set { machine with bus := bus, wait := machine.wait + reading.wait.toNat }
      return reading.data &&& 1 != 0

def cruWrite (bit : UInt16) (value : Bool) : Exec β Unit := do
  let bit := bit &&& 0x0FFF
  let machine ← get
  match machine.cpu.setInternalBit? bit value with
  | some cpu => set { machine with cpu := cpu }
  | none =>
      let (wait, bus) := Bus.ioWrite machine.bus bit.toUInt32 value.toUInt8
      set { machine with bus := bus, wait := machine.wait + wait.toNat }

def setIdle (idle : Bool) : Exec β Unit :=
  modify fun machine =>
    { machine with
      cpu.idle := idle
      bus := Bus.idleChanged machine.bus idle }

end Exec

end TmsCores.Tms9900
