import TmsCores.OpcodeTable

namespace TmsCores.Tms7000

/-- The registers that most instructions work on. -/
inductive Accumulator
  | a
  | b
  deriving DecidableEq

inductive DualForm
  | bToA
  | registerToA
  | immediateToA
  | registerToB
  | immediateToB
  | registerToRegister
  | immediateToRegister
  deriving DecidableEq

inductive DualOperation
  | mov
  | and
  | or
  | xor
  | btjo
  | btjz
  | add
  | adc
  | sub
  | sbb
  | mpy
  | cmp
  | dac
  | dsb
  deriving DecidableEq

inductive PeripheralSource
  | a
  | b
  | immediate
  deriving DecidableEq

inductive PeripheralOperation
  | mov
  | and
  | or
  | xor
  | btjo
  | btjz
  deriving DecidableEq

inductive ExtendedMode
  | direct
  /-- `*Rn`: the address is in the register pair that ends at Rn. -/
  | indirect
  | indexed
  deriving DecidableEq

inductive ExtendedOperation
  | movd
  | lda
  | sta
  | br
  | cmpa
  | call
  deriving DecidableEq

inductive Target
  | a
  | b
  | register
  deriving DecidableEq

inductive SingleOperation
  | dec
  | inc
  | inv
  | clr
  | xchb
  | swap
  | push
  | pop
  | djnz
  | decd
  | rr
  | rrc
  | rl
  | rlc
  deriving DecidableEq

inductive Condition
  | always
  | negative
  | equal
  | carry
  | positive
  | positiveOrZero
  | notEqual
  | noCarry
  deriving DecidableEq

inductive Instruction
  | nop
  | idle
  | eint
  | dint
  | setc
  | popSt
  | pushSt
  | stsp
  | ldsp
  | rets
  | reti
  | dual (operation : DualOperation) (form : DualForm)
  | movp (destination : Accumulator)
  | peripheral (operation : PeripheralOperation) (source : PeripheralSource)
  | extended (operation : ExtendedOperation) (mode : ExtendedMode)
  /-- Clears carry and tests A. -/
  | clrc
  | movAB
  | tstb
  | movToRegister (source : Accumulator)
  | single (operation : SingleOperation) (target : Target)
  | jump (condition : Condition)
  | trap (number : UInt8)
  deriving DecidableEq

namespace Instruction

abbrev Entry :=
  OpcodeEntry Instruction

/-- The opcodes 00 to 0F, which take no operand from the grid. -/
def control? : (column : Nat) → Option Entry
  | 0x0 => some ⟨.nop, 5⟩
  | 0x1 => some ⟨.idle, 6⟩
  | 0x5 => some ⟨.eint, 5⟩
  | 0x6 => some ⟨.dint, 5⟩
  | 0x7 => some ⟨.setc, 5⟩
  | 0x8 => some ⟨.popSt, 6⟩
  | 0x9 => some ⟨.stsp, 6⟩
  | 0xA => some ⟨.rets, 7⟩
  | 0xB => some ⟨.reti, 9⟩
  | 0xD => some ⟨.ldsp, 5⟩
  | 0xE => some ⟨.pushSt, 6⟩
  | _ => none

def dualOperation? : (column : Nat) → Option DualOperation
  | 0x2 => some .mov
  | 0x3 => some .and
  | 0x4 => some .or
  | 0x5 => some .xor
  | 0x6 => some .btjo
  | 0x7 => some .btjz
  | 0x8 => some .add
  | 0x9 => some .adc
  | 0xA => some .sub
  | 0xB => some .sbb
  | 0xC => some .mpy
  | 0xD => some .cmp
  | 0xE => some .dac
  | 0xF => some .dsb
  | _ => none

def dualCycles : DualForm → UInt8
  | .bToA => 5
  | .registerToA | .registerToB => 8
  | .registerToRegister => 10
  | .immediateToA | .immediateToB => 7
  | .immediateToRegister => 9

def multiplyCycles : DualForm → UInt8
  | .bToA => 44
  | .registerToA | .registerToB => 46
  | .registerToRegister => 48
  | .immediateToA | .immediateToB => 45
  | .immediateToRegister => 47

def bitTestCycles : DualForm → UInt8
  | .bToA => 7
  | .registerToA | .registerToB => 9
  | .registerToRegister => 11
  | .immediateToA | .immediateToB => 8
  | .immediateToRegister => 10

/-- The cost of an operation with two operands.  Decimal arithmetic takes two cycles more than
binary arithmetic. -/
def dualCost : DualOperation → DualForm → UInt8
  | .mpy, form => multiplyCycles form
  | .dac, form | .dsb, form => dualCycles form + 2
  | .btjo, form | .btjz, form => bitTestCycles form
  | _, form => dualCycles form

def dual? (form : DualForm) (column : Nat) : Option Entry :=
  (dualOperation? column).map fun operation => ⟨.dual operation form, dualCost operation form⟩

def peripheralOperation? : (column : Nat) → Option PeripheralOperation
  | 0x2 => some .mov
  | 0x3 => some .and
  | 0x4 => some .or
  | 0x5 => some .xor
  | 0x6 => some .btjo
  | 0x7 => some .btjz
  | _ => none

/-- The cost of an operation on the peripheral file.  A bit test takes one cycle more. -/
def peripheralCost (operation : PeripheralOperation) (source : PeripheralSource) : UInt8 :=
  let plain :=
    match source with
    | .a => 10
    | .b => 9
    | .immediate => 11
  match operation with
  | .btjo | .btjz => plain + 1
  | _ => plain

def extendedOperation? : (column : Nat) → Option ExtendedOperation
  | 0x8 => some .movd
  | 0xA => some .lda
  | 0xB => some .sta
  | 0xC => some .br
  | 0xD => some .cmpa
  | 0xE => some .call
  | _ => none

def extendedCost : ExtendedOperation → ExtendedMode → UInt8
  | .movd, .direct => 15
  | .movd, .indirect => 14
  | .movd, .indexed => 17
  | .lda, .direct | .sta, .direct => 11
  | .lda, .indirect | .sta, .indirect => 9
  | .lda, .indexed | .sta, .indexed => 13
  | .br, .direct => 10
  | .br, .indirect => 8
  | .br, .indexed => 12
  | .cmpa, .direct => 12
  | .cmpa, .indirect => 11
  | .cmpa, .indexed => 14
  | .call, .direct => 15
  | .call, .indirect => 13
  | .call, .indexed => 17

/-- The columns 2 to F of a row that works on the peripheral file and on 16-bit operands. -/
def memory? (source : PeripheralSource) (mode : ExtendedMode) (column : Nat) : Option Entry :=
  match peripheralOperation? column, extendedOperation? column with
  | some operation, _ => some ⟨.peripheral operation source, peripheralCost operation source⟩
  | none, some operation => some ⟨.extended operation mode, extendedCost operation mode⟩
  | none, none => none

def singleOperation? : (column : Nat) → Option SingleOperation
  | 0x2 => some .dec
  | 0x3 => some .inc
  | 0x4 => some .inv
  | 0x5 => some .clr
  | 0x6 => some .xchb
  | 0x7 => some .swap
  | 0x8 => some .push
  | 0x9 => some .pop
  | 0xA => some .djnz
  | 0xB => some .decd
  | 0xC => some .rr
  | 0xD => some .rrc
  | 0xE => some .rl
  | 0xF => some .rlc
  | _ => none

/-- The cost of an operation on an accumulator.  A register takes two cycles more. -/
def singleCost (operation : SingleOperation) (target : Target) : UInt8 :=
  let plain :=
    match operation with
    | .xchb | .push | .pop => 6
    | .swap => 8
    | .djnz => 7
    | .decd => 9
    | _ => 5
  match target with
  | .a | .b => plain
  | .register => plain + 2

def single? (target : Target) (column : Nat) : Option Entry :=
  (singleOperation? column).map fun operation =>
    ⟨.single operation target, singleCost operation target⟩

def jump? : (column : Nat) → Option Entry
  | 0x0 => some ⟨.jump .always, 7⟩
  | 0x1 => some ⟨.jump .negative, 5⟩
  | 0x2 => some ⟨.jump .equal, 5⟩
  | 0x3 => some ⟨.jump .carry, 5⟩
  | 0x4 => some ⟨.jump .positive, 5⟩
  | 0x5 => some ⟨.jump .positiveOrZero, 5⟩
  | 0x6 => some ⟨.jump .notEqual, 5⟩
  | 0x7 => some ⟨.jump .noCarry, 5⟩
  | _ => none

/-- The opcodes E8 to FF, whose traps are numbered downwards. -/
def trapEntry (opcode : UInt8) : Entry :=
  ⟨.trap (0xFF - opcode), 14⟩

/-- The instruction of an opcode.  The high digit picks the row, which fixes the form of the
operands, and the low digit picks the operation. -/
def ofOpcode? (opcode : UInt8) : Option Entry :=
  let column := opcode.toNat % 16
  match opcode.toNat / 16 with
  | 0x0 => control? column
  | 0x1 => dual? .registerToA column
  | 0x2 => dual? .immediateToA column
  | 0x3 => dual? .registerToB column
  | 0x4 => dual? .registerToRegister column
  | 0x5 => dual? .immediateToB column
  | 0x6 => dual? .bToA column
  | 0x7 => dual? .immediateToRegister column
  | 0x8 => if column = 0 then some ⟨.movp .a, 9⟩ else memory? .a .direct column
  | 0x9 => if column = 1 then some ⟨.movp .b, 8⟩ else memory? .b .indirect column
  | 0xA => memory? .immediate .indexed column
  | 0xB => if column = 0 then some ⟨.clrc, 5⟩ else single? .a column
  | 0xC =>
      match column with
      | 0x0 => some ⟨.movAB, 6⟩
      | 0x1 => some ⟨.tstb, 6⟩
      | _ => single? .b column
  | 0xD =>
      match column with
      | 0x0 => some ⟨.movToRegister .a, 8⟩
      | 0x1 => some ⟨.movToRegister .b, 7⟩
      | _ => single? .register column
  | 0xE => if column < 8 then jump? column else some (trapEntry opcode)
  | _ => some (trapEntry opcode)

/-- The entry of an opcode in a table.  An opcode without an instruction costs
`illegalCycles`. -/
def decode (opcode illegalCycles : UInt8) : OpcodeEntry (Option Instruction) :=
  match ofOpcode? opcode with
  | some entry => ⟨some entry.operation, entry.cycles⟩
  | none => ⟨none, illegalCycles⟩

/-- The table of all opcodes, with four cycles for an illegal one. -/
def table : OpcodeTable (Option Instruction) :=
  .ofDecoder UInt8.size fun opcode => decode opcode.toUInt8 4

/-- An opcode is looked up by its low byte. -/
theorem get?_table (opcode : UInt32) : table.get? opcode = some (decode opcode.toUInt8 4) := by
  have hlow : (UInt32.ofNat (opcode.toNat % (1 <<< 8))).toUInt8 = opcode.toUInt8 := by
    apply UInt8.toNat_inj.mp
    simp
  change (OpcodeTable.ofDecoder (1 <<< 8) _).get? opcode = _
  rw [OpcodeTable.get?_ofDecoder, hlow]

end Instruction

end TmsCores.Tms7000
