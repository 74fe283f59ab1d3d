import TmsCores.Tms7000.Config
import TmsCores.Tms7000.Timer

namespace TmsCores.Tms7000

def int1 : UInt8 :=
  0

/-- Timer 1 requests service on this line. -/
def int2 : UInt8 :=
  1

/-- An edge on this line captures timer 1. -/
def int3 : UInt8 :=
  2

/-- The registers of the peripheral file that are on the chip. -/
structure PeripheralFile where
  /-- IOCNT0 without its flag bits, which are the interrupt latches. -/
  control : UInt8 := 0
  timer : Timer := {}
  deriving DecidableEq

namespace PeripheralFile

def enableBit (line : UInt8) : UInt8 :=
  1 <<< (line * 2)

/-- The bit of IOCNT0 that shows a request on a line, and clears it when it is written. -/
def flagBit (line : UInt8) : UInt8 :=
  2 <<< (line * 2)

def flagBits : UInt8 :=
  0x2A

def enableBits : UInt8 :=
  0x15

/-- IOCNT0 as it is read, given which lines request service. -/
def readControl (file : PeripheralFile) (requests : UInt8 → Bool) : UInt8 :=
  [int1, int2, int3].foldl
    (fun value line => if requests line then value ||| flagBit line else value)
    (file.control &&& ~~~flagBits)

def writeControl (file : PeripheralFile) (value : UInt8) : PeripheralFile :=
  { file with control := value &&& ~~~flagBits }

def clearsLatch (value line : UInt8) : Bool :=
  value &&& flagBit line != 0

def isEnabled (file : PeripheralFile) (line : UInt8) : Bool :=
  file.control &&& enableBits &&& enableBit line != 0

end PeripheralFile

inductive Location
  | register (number : Nat)
  /-- IOCNT0, the enables and flags of the interrupt lines. -/
  | interruptControl
  /-- T1DATA: the reload value when written, the decrementer when read. -/
  | timerData
  /-- T1CTL: the control register when written, the capture latch when read. -/
  | timerControl
  /-- A port in the I/O space of the bus. -/
  | port (number : UInt8)
  | memory (address : UInt16)
  deriving DecidableEq

/-- What lies behind a number of the peripheral file.  Numbers that the chip does not use are
memory at 0x0100 and up. -/
def Location.ofPeripheral (number : UInt8) : Location :=
  if number = 0 then .interruptControl
  else if number = 2 then .timerData
  else if number = 3 then .timerControl
  else if 4 ≤ number && number ≤ 11 then .port number
  else .memory (0x0100 ||| number.toUInt16)

/-- What lies behind an address: the register file at the bottom, the peripheral file at 0x0100,
and memory everywhere else. -/
def Location.ofAddress (config : Config) (address : UInt16) : Location :=
  if address < config.registerCount then .register address.toNat
  else if address >>> 8 = 0x01 then .ofPeripheral address.toUInt8
  else .memory address

end TmsCores.Tms7000
