import TmsCores.Clock
import TmsCores.Interrupt.Controller
import TmsCores.Storage
import TmsCores.Tms7000.AddressSpace
import TmsCores.Tms7000.Register
import TmsCores.Tms7000.Status

namespace TmsCores.Tms7000

/-- A processor between two iterations: all of its state that lasts. -/
structure Cpu where
  config : Config
  pc : UInt16 := 0
  sp : UInt8 := 1
  st : UInt8 := 0
  /-- The register file.  A is its byte 0 and B its byte 1. -/
  file : Array UInt8
  peripherals : PeripheralFile := {}
  interrupts : InterruptController
  divider : TickDivider
  idle : Bool := false
  cycles : CycleCount := {}
  deriving DecidableEq

namespace Cpu

def lineConfigs : List LineConfig :=
  [⟨1, true, .edgeLatched⟩, ⟨2, true, .edgeLatched⟩, ⟨3, true, .edgeLatched⟩]

/-- The controller with the enables of IOCNT0. -/
def syncEnables (peripherals : PeripheralFile) (interrupts : InterruptController) :
    InterruptController :=
  [int1, int2, int3].foldl
    (fun interrupts line => interrupts.setEnabled line (peripherals.isEnabled line)) interrupts

/-- A new processor.  It has to be reset before it runs a program. -/
def ofConfig (config : Config) : Cpu where
  config := config.clamp
  file := Array.replicate config.clamp.registerCount.toNat 0
  interrupts := syncEnables {} (.ofLines lineConfigs .atOrBelow)
  divider := .ofDivisor config.tickDivider

def ofVariant (variant : Variant) : Cpu :=
  ofConfig variant.config

/-- A byte of the register file, if it is there. -/
def register? (cpu : Cpu) (number : Nat) : Option UInt8 :=
  cpu.file[number]?

/-- The register file with one byte replaced, if it is there. -/
def setFile? (cpu : Cpu) (number : Nat) (value : UInt8) : Option (Array UInt8) :=
  Storage.set? cpu.file number value

/-- A byte of the register file, zero beyond its end. -/
def register (cpu : Cpu) (number : Nat) : UInt8 :=
  (cpu.register? number).getD 0

def a (cpu : Cpu) : UInt8 :=
  cpu.register 0

/-- The second accumulator, which also holds offsets and stack positions. -/
def b (cpu : Cpu) : UInt8 :=
  cpu.register 1

/-- The program counter moved, as a host does to start a program without a reset vector. -/
def setPc (cpu : Cpu) (pc : UInt16) : Cpu :=
  { cpu with pc := pc }

/-- The byte of the register file that a register is, if it is there. -/
def readByte? (cpu : Cpu) (register : Register) (number : Nat) : Except MissingRegister UInt16 :=
  match cpu.register? number with
  | some value => .ok value.toUInt16
  | none => .error ⟨register⟩

/-- The processor with a byte of the register file replaced, if it is there. -/
def writeByte? (cpu : Cpu) (register : Register) (number : Nat) (value : UInt8) :
    Except MissingRegister Cpu :=
  match cpu.setFile? number value with
  | some file => .ok { cpu with file := file }
  | none => .error ⟨register⟩

def read? (cpu : Cpu) : Register → Except MissingRegister UInt16
  | .pc => .ok cpu.pc
  | .sp => .ok cpu.sp.toUInt16
  | .st => .ok cpu.st.toUInt16
  | .a => cpu.readByte? .a 0
  | .b => cpu.readByte? .b 1
  | .r number => cpu.readByte? (.r number) number.toNat

/-- The processor with one register replaced.  A byte register takes the low byte of `value`. -/
def write? (cpu : Cpu) (register : Register) (value : UInt16) : Except MissingRegister Cpu :=
  match register with
  | .pc => .ok { cpu with pc := value }
  | .sp => .ok { cpu with sp := value.toUInt8 }
  | .st => .ok { cpu with st := value.toUInt8 &&& Status.mask }
  | .a => cpu.writeByte? .a 0 value.toUInt8
  | .b => cpu.writeByte? .b 1 value.toUInt8
  | .r number => cpu.writeByte? (.r number) number.toNat value.toUInt8

/-- Drives an interrupt input.  An edge on INT3 captures timer 1. -/
def drive (cpu : Cpu) (line : UInt8) (state : LineState) : Cpu :=
  let (rising, interrupts) := cpu.interrupts.drive line state
  if rising && line == int3 then
    { cpu with
      interrupts := interrupts
      peripherals.timer.capture := cpu.peripherals.timer.decrementer }
  else
    { cpu with interrupts := interrupts }

/-- A line shows as requesting in IOCNT0: its edge is latched or it is still active. -/
def requests (cpu : Cpu) (line : UInt8) : Bool :=
  cpu.interrupts.isLatched line || (cpu.interrupts.state line).isActive

def interruptControl (cpu : Cpu) : UInt8 :=
  cpu.peripherals.readControl cpu.requests

def clearLatch (value : UInt8) (interrupts : InterruptController) (line : UInt8) :
    InterruptController :=
  if PeripheralFile.clearsLatch value line then interrupts.setLatch line false else interrupts

def writeInterruptControl (cpu : Cpu) (value : UInt8) : Cpu :=
  let peripherals := cpu.peripherals.writeControl value
  let interrupts := [int1, int2, int3].foldl (clearLatch value) cpu.interrupts
  { cpu with peripherals := peripherals, interrupts := syncEnables peripherals interrupts }

/-- One clock of timer 1.  It requests service on INT2 when the decrementer runs out. -/
def clockTimer (cpu : Cpu) : Cpu :=
  let (expired, timer) := cpu.peripherals.timer.clock
  { cpu with
    peripherals.timer := timer
    interrupts := if expired then cpu.interrupts.setLatch int2 true else cpu.interrupts }

/-- Cycles charged, and the ticks of the peripheral clock that they complete. -/
def advance (cpu : Cpu) (cycles : Nat) : Nat × Cpu :=
  let (count, divider) := cpu.divider.advance cycles
  (count, { cpu with cycles := cpu.cycles.advance cycles, divider := divider })

/-- Status, stack pointer, interrupts and timer as after power-up. -/
def powerUp (cpu : Cpu) : Cpu :=
  { cpu with
    st := 0
    sp := 1
    peripherals := {}
    interrupts := syncEnables {} cpu.interrupts.reset
    divider := cpu.divider.reset }

def pending (cpu : Cpu) : Option PendingLine :=
  if Status.has cpu.st Status.interruptEnable then cpu.interrupts.pending 0xFF else none

end Cpu

end TmsCores.Tms7000
