import TmsCores.Tms7000.Arithmetic
import TmsCores.Tms7000.Instruction
import TmsCores.Tms7000.Machine

namespace TmsCores.Tms7000

def Condition.holds (condition : Condition) (st : UInt8) : Bool :=
  match condition with
  | .always => true
  | .negative => Status.has st Status.negative
  | .equal => Status.has st Status.zero
  | .carry => Status.has st Status.carry
  | .positive => !Status.has st (Status.negative ||| Status.zero)
  | .positiveOrZero => !Status.has st Status.negative
  | .notEqual => !Status.has st Status.zero
  | .noCarry => !Status.has st Status.carry

def Accumulator.number : Accumulator → UInt8
  | .a => 0
  | .b => 1

namespace Exec

variable {β : Type} [Bus β]

def takenCycles : Nat :=
  2

def trapCycles : Nat :=
  14

/-- An accumulator, straight from the register file. -/
def readAccumulator (accumulator : Accumulator) : Exec β UInt8 :=
  readFile accumulator.number.toNat

def writeAccumulator (accumulator : Accumulator) (value : UInt8) : Exec β Unit :=
  writeFile accumulator.number.toNat value

def jumpRelative (offset : UInt8) : Exec β Unit := do
  setPc ((← cpu).pc + Word.signExtend offset)

/-- Fetches the offset of a conditional branch and takes it or not.  Returns the extra cycles. -/
def branchIf (taken : Bool) : Exec β Nat := do
  let offset ← fetch
  if taken then
    jumpRelative offset
    return takenCycles
  else
    return 0

def branchOnBits (bits : UInt8) : Exec β Nat := do
  modifySt (Status.logical · bits)
  branchIf (bits != 0)

def storeOutcome (number : UInt8) (outcome : Outcome) : Exec β Unit := do
  modifySt fun _ => outcome.st
  writeRegister number outcome.value

/-- Fetches the operands of a form: the source value and the number of the destination. -/
def dualOperands : DualForm → Exec β (UInt8 × UInt8)
  | .bToA => return (← readAccumulator .b, Accumulator.a.number)
  | .registerToA => return (← readRegister (← fetch), Accumulator.a.number)
  | .immediateToA => return (← fetch, Accumulator.a.number)
  | .registerToB => return (← readRegister (← fetch), Accumulator.b.number)
  | .immediateToB => return (← fetch, Accumulator.b.number)
  | .registerToRegister => do
      let source ← fetch
      let destination ← fetch
      return (← readRegister source, destination)
  | .immediateToRegister => do
      let source ← fetch
      let destination ← fetch
      return (source, destination)

/-- An instruction with two operands.  Returns the extra cycles. -/
def dual (operation : DualOperation) (form : DualForm) : Exec β Nat := do
  let (s, destination) ← dualOperands form
  match operation with
  | .mov =>
      writeRegister destination s
      modifySt (Status.logical · s)
      return 0
  | .and => binary destination fun st d => .logical st (s &&& d)
  | .or => binary destination fun st d => .logical st (s ||| d)
  | .xor => binary destination fun st d => .logical st (s ^^^ d)
  | .btjo => branchOnBits (s &&& (← readRegister destination))
  | .btjz => branchOnBits (s &&& ~~~(← readRegister destination))
  | .add => binary destination fun st d => .add st d s false
  | .adc => binary destination fun st d => .add st d s (Status.has st Status.carry)
  | .sub => binary destination fun st d => .subtract st d s false
  | .sbb => binary destination fun st d => .subtract st d s (!Status.has st Status.carry)
  | .mpy => do
      let d ← readRegister destination
      let product := s.toUInt16 * d.toUInt16
      writeAccumulator .a (Word.high product)
      writeAccumulator .b (Word.low product)
      modifySt (Status.logical · (Word.high product))
      return 0
  | .cmp => do
      let d ← readRegister destination
      modifySt fun st => (Outcome.subtract st d s false).st
      return 0
  | .dac => binary destination fun st d => .addDecimal st d s (Status.has st Status.carry)
  | .dsb => binary destination fun st d => .subtractDecimal st d s (!Status.has st Status.carry)
where
  binary (destination : UInt8) (combine : UInt8 → UInt8 → Outcome) : Exec β Nat := do
    let d ← readRegister destination
    storeOutcome destination (combine (← cpu).st d)
    return 0

def peripheralSource : PeripheralSource → Exec β UInt8
  | .a => readAccumulator .a
  | .b => readAccumulator .b
  | .immediate => fetch

/-- An instruction on the peripheral file.  MOVP does not read its destination.  Returns the extra
cycles. -/
def peripheral (operation : PeripheralOperation) (source : PeripheralSource) : Exec β Nat := do
  let s ← peripheralSource source
  let number ← fetch
  match operation with
  | .mov => store number s
  | .and => store number (s &&& (← readPeripheral number))
  | .or => store number (s ||| (← readPeripheral number))
  | .xor => store number (s ^^^ (← readPeripheral number))
  | .btjo => branchOnBits (s &&& (← readPeripheral number))
  | .btjz => branchOnBits (s &&& ~~~(← readPeripheral number))
where
  store (number value : UInt8) : Exec β Nat := do
    writePeripheral number value
    modifySt (Status.logical · value)
    return 0

def extendedOperand : ExtendedMode → Exec β UInt16
  | .direct => fetchWord
  | .indirect => do readPair (← fetch)
  | .indexed => do
      let base ← fetchWord
      return base + (← readAccumulator .b).toUInt16

def extended (operation : ExtendedOperation) (mode : ExtendedMode) : Exec β Unit := do
  let operand ← extendedOperand mode
  match operation with
  | .movd => do
      let number ← fetch
      writePair number operand
      modifySt (Status.logical · (Word.high operand))
  | .lda => do
      let value ← read operand
      writeAccumulator .a value
      modifySt (Status.logical · value)
  | .sta => do
      let value ← readAccumulator .a
      write operand value
      modifySt (Status.logical · value)
  | .br => setPc operand
  | .cmpa => do
      let value ← read operand
      let a ← readAccumulator .a
      modifySt fun st => (Outcome.subtract st a value false).st
  | .call => do
      pushPc
      setPc operand

def targetNumber : Target → Exec β UInt8
  | .a => return Accumulator.a.number
  | .b => return Accumulator.b.number
  | .register => fetch

/-- An instruction with one operand.  Returns the extra cycles. -/
def single (operation : SingleOperation) (target : Target) : Exec β Nat := do
  let number ← targetNumber target
  match operation with
  | .dec => unary number fun st v => .subtract st v 1 false
  | .inc => unary number fun st v => .add st v 1 false
  | .inv => unary number fun st v => .logical st (~~~v)
  | .clr => do
      storeOutcome number (.logical (← cpu).st 0)
      return 0
  | .xchb => do
      let v ← readRegister number
      let b ← readAccumulator .b
      writeRegister number b
      writeAccumulator .b v
      modifySt (Status.logical · v)
      return 0
  | .swap => unary number Outcome.swap
  | .push => do
      let v ← readRegister number
      push v
      modifySt (Status.logical · v)
      return 0
  | .pop => do
      let v ← pop
      storeOutcome number (.logical (← cpu).st v)
      return 0
  | .djnz => do
      let v ← readRegister number
      writeRegister number (v - 1)
      branchIf (v - 1 != 0)
  | .decd => do
      let v ← readPair number
      writePair number (v - 1)
      modifySt fun st =>
        Status.withCarry (Status.logical st (Word.high (v - 1))) (v != 0)
      return 0
  | .rr => unary number Outcome.rotateRight
  | .rrc => unary number fun st v => .rotateRightCarry st v (Status.has st Status.carry)
  | .rl => unary number Outcome.rotateLeft
  | .rlc => unary number fun st v => .rotateLeftCarry st v (Status.has st Status.carry)
where
  unary (number : UInt8) (change : UInt8 → UInt8 → Outcome) : Exec β Nat := do
    let v ← readRegister number
    storeOutcome number (change (← cpu).st v)
    return 0

def trap (number : UInt8) : Exec β Unit := do
  pushPc
  setPc (← readWord (0xFFFE - 2 * number.toUInt16))

/-- Carries out an instruction whose opcode has been fetched.  Returns the cycles on top of its
base cost. -/
def perform : Instruction → Exec β Nat
  | .nop => return 0
  | .idle => do
      setIdle true
      return 0
  | .eint => do
      modifySt fun _ => Status.mask
      return 0
  | .dint => do
      modifySt fun _ => 0
      return 0
  | .setc => do
      modifySt fun st => (st &&& Status.interruptEnable) ||| Status.carry ||| Status.zero
      return 0
  | .popSt => do
      let st ← pop
      modifySt fun _ => st &&& Status.mask
      return 0
  | .pushSt => do
      push (← cpu).st
      return 0
  | .stsp => do
      writeAccumulator .b (← cpu).sp
      return 0
  | .ldsp => do
      let sp ← readAccumulator .b
      setSp sp
      return 0
  | .rets => do
      popPc
      return 0
  | .reti => do
      popPc
      let st ← pop
      modifySt fun _ => st &&& Status.mask
      return 0
  | .dual operation form => dual operation form
  | .movp destination => do
      let value ← readPeripheral (← fetch)
      writeAccumulator destination value
      modifySt (Status.logical · value)
      return 0
  | .peripheral operation source => peripheral operation source
  | .extended operation mode => do
      extended operation mode
      return 0
  | .clrc => do
      let a ← readAccumulator .a
      modifySt (Status.logical · a)
      return 0
  | .movAB => do
      let a ← readAccumulator .a
      writeAccumulator .b a
      modifySt (Status.logical · a)
      return 0
  | .tstb => do
      let b ← readAccumulator .b
      modifySt (Status.logical · b)
      return 0
  | .movToRegister source => do
      let number ← fetch
      let value ← readAccumulator source
      writeRegister number value
      modifySt (Status.logical · value)
      return 0
  | .single operation target => single operation target
  | .jump condition => do
      let cycles ← branchIf (condition.holds (← cpu).st)
      return if condition = .always then 0 else cycles
  | .trap number => do
      trap number
      return 0

def illegal : Exec β Nat := do
  match (← cpu).config.illegal with
  | .ignore cycles => return cycles.toNat
  | .trap =>
      trap 0
      return trapCycles

/-- Fetches and executes one instruction.  Returns its cost without wait states. -/
def execute : Exec β Nat := do
  match Instruction.ofOpcode? (← fetch) with
  | none => illegal
  | some entry =>
      let extra ← perform entry.operation
      return entry.cycles.toNat + extra

end Exec

end TmsCores.Tms7000
