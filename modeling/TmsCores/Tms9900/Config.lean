import TmsCores.Interrupt.Line
import TmsCores.OpcodeTable

namespace TmsCores.Tms9900

/-- Which opcodes a processor has, and what they cost. -/
inductive InstructionSet
  | tms9900
  /-- Adds LST, LWP, DIVS and MPYS, and takes no opcode with stray bits. -/
  | tms9995
  deriving DecidableEq

def InstructionSet.name : InstructionSet → String
  | .tms9900 => "Tms9900"
  | .tms9995 => "Tms9995"

inductive DataBus
  /-- Byte operands are read as whole words, and writing one takes its word along. -/
  | word
  /-- A byte operand is one access. -/
  | byte
  deriving DecidableEq

def DataBus.name : DataBus → String
  | .word => "Word"
  | .byte => "Byte"

structure Config where
  instructionSet : InstructionSet
  dataBus : DataBus
  /-- The address bits that reach the bus. -/
  addressMask : UInt16
  /-- The status bits that a program can write. -/
  statusMask : UInt16
  /-- The number of interrupt levels that can be masked.  Line `n` below it has level `n`, and the
  line after them is LOAD. -/
  levels : UInt8
  latch : LatchPolicy
  illegal : IllegalOpcode
  /-- MOV and MOVB read their destination before they write it. -/
  dummyDestinationRead : Bool
  /-- Cycles that each byte moved over the bus takes on top of wait states. -/
  byteAccessCycles : UInt8
  /-- The chip has memory, a decrementer and flags of its own. -/
  onChip : Bool
  /-- Processor cycles for each clock of the decrementer. -/
  tickDivider : UInt32
  deriving DecidableEq

namespace Config

def loadLine (config : Config) : UInt8 :=
  config.levels

def text (config : Config) : String :=
  RecordText.text "Config"
    [("instruction_set", config.instructionSet.name), ("data_bus", config.dataBus.name),
      ("address_mask", toString config.addressMask.toNat),
      ("st_mask", toString config.statusMask.toNat), ("levels", toString config.levels.toNat),
      ("latch", config.latch.name), ("illegal", config.illegal.text),
      ("dummy_dest_read", toString config.dummyDestinationRead),
      ("byte_access_cycles", toString config.byteAccessCycles.toNat),
      ("on_chip", toString config.onChip), ("tick_divider", toString config.tickDivider.toNat)]

end Config

structure ModeCycles where
  register : UInt8
  indirect : UInt8
  indexed : UInt8
  autoIncrement : UInt8
  deriving DecidableEq

/-- Costs that the table of opcodes does not hold. -/
structure Timing where
  wordMode : ModeCycles
  byteMode : ModeCycles
  jumpTaken : UInt8
  shiftPerBit : UInt8
  /-- The count of a shift comes from R0. -/
  shiftFromR0 : UInt8
  cruPerBit : UInt8
  absNegative : UInt8
  /-- A division that does not overflow. -/
  divExtra : UInt8
  /-- Each one bit of a quotient. -/
  divPerBit : UInt8
  /-- The context switch of an interrupt. -/
  interrupt : UInt8
  reset : UInt8
  deriving DecidableEq

def InstructionSet.timing : InstructionSet → Timing
  | .tms9900 =>
      { wordMode := ⟨0, 4, 8, 8⟩
        byteMode := ⟨0, 4, 8, 6⟩
        jumpTaken := 2
        shiftPerBit := 2
        shiftFromR0 := 8
        cruPerBit := 2
        absNegative := 2
        divExtra := 76
        divPerBit := 2
        interrupt := 22
        reset := 26 }
  | .tms9995 =>
      { wordMode := ⟨0, 1, 2, 2⟩
        byteMode := ⟨0, 1, 2, 2⟩
        jumpTaken := 0
        shiftPerBit := 1
        shiftFromR0 := 2
        cruPerBit := 1
        absNegative := 0
        divExtra := 22
        divPerBit := 0
        interrupt := 14
        reset := 14 }

inductive Variant
  /-- A 16-bit data bus and 15 interrupt levels besides reset. -/
  | tms9900
  /-- An 8-bit data bus and 14 address bits. -/
  | tms9980A
  /-- An 8-bit data bus, with memory and a decrementer on the chip. -/
  | tms9995
  deriving DecidableEq

namespace Variant

def name : Variant → String
  | .tms9900 => "TMS9900"
  | .tms9980A => "TMS9980A"
  | .tms9995 => "TMS9995"

def config : Variant → Config
  | .tms9900 =>
      { instructionSet := .tms9900
        dataBus := .word
        addressMask := 0xFFFF
        statusMask := 0xFE0F
        levels := 16
        latch := .combinatorial
        illegal := .ignore 6
        dummyDestinationRead := true
        byteAccessCycles := 0
        onChip := false
        tickDivider := 4 }
  | .tms9980A =>
      { instructionSet := .tms9900
        dataBus := .byte
        addressMask := 0x3FFF
        statusMask := 0xFE0F
        levels := 5
        latch := .combinatorial
        illegal := .ignore 6
        dummyDestinationRead := true
        byteAccessCycles := 1
        onChip := false
        tickDivider := 4 }
  | .tms9995 =>
      { instructionSet := .tms9995
        dataBus := .byte
        addressMask := 0xFFFF
        statusMask := 0xFE2F
        levels := 5
        latch := .edgeLatched
        illegal := .trap
        dummyDestinationRead := false
        byteAccessCycles := 0
        onChip := true
        tickDivider := 4 }

end Variant

end TmsCores.Tms9900
