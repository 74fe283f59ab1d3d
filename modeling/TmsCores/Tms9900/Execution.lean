import TmsCores.Tms9900.Arithmetic
import TmsCores.Tms9900.Operand

namespace TmsCores.Tms9900

def registerField (opcode : UInt16) : UInt16 :=
  (opcode >>> 6) &&& 0xF

/-- How many bits LDCR and STCR move.  Zero in the opcode means 16. -/
def cruCount (opcode : UInt16) : Nat :=
  if registerField opcode = 0 then 16 else (registerField opcode).toNat

def cruWidth (count : Nat) : Width :=
  if count ≤ 8 then .byte else .word

def stcrCycles (config : Config) (count : Nat) : Nat :=
  match config.instructionSet with
  | .tms9900 =>
      if count < 8 then 0
      else if count = 8 then 2
      else if count < 16 then 16
      else 18
  | .tms9995 => config.instructionSet.timing.cruPerBit.toNat * count

namespace Exec

variable {β : Type} [Bus β]

/-- Sets the status after an arithmetic operation, and requests an interrupt if it overflowed. -/
def setArithmetic (result : UInt16) (flags : FlagSet) (width : Width) : Exec β Unit := do
  modifySt (Status.arithmetic · result flags width)
  if flags.overflow then
    modifyCpu Cpu.overflowTrap

def setOverflow : Exec β Unit := do
  modifySt (· ||| Status.overflow)
  modifyCpu Cpu.overflowTrap

/-- The general source of an opcode as a word: its value, and the cycles that it takes to
address it. -/
def sourceWord (opcode : UInt16) : Exec β (UInt16 × Nat) := do
  let (address, cycles) ← resolve (.source opcode) .word
  let value ← readWord address
  return (value, cycles)

/-- What an instruction with two general operands makes of them.  Sets the status, and returns the
value to store, if any. -/
def combine (operation : DualOperation) (width : Width) (s d : UInt16) :
    Exec β (Option UInt16) := do
  match operation with
  | .mov =>
      modifySt (Status.result · s width)
      return some s
  | .szc =>
      modifySt (Status.result · (d &&& ~~~s) width)
      return some (d &&& ~~~s)
  | .soc =>
      modifySt (Status.result · (d ||| s) width)
      return some (d ||| s)
  | .a =>
      let result := (d + s) &&& width.mask
      setArithmetic result (.ofAdd d s result width) width
      return some result
  | .s =>
      let result := (d - s) &&& width.mask
      setArithmetic result (.ofSub d s result width) width
      return some result
  | .c =>
      modifySt fun st =>
        let st := Status.compare st s d width
        match width with
        | .byte => Word.withBit st Status.parity (oddParity (Word.low s))
        | .word => st
      return none

/-- Reads a destination whose contents do not matter, on processors that do so. -/
def dummyRead (address : UInt16) (width : Width) : Exec β Unit := do
  if (← cpu).config.dummyDestinationRead then
    let _ ← readOperand address width

/-- What a destination holds before an operation, zero if the operation takes no notice of it. -/
def readDestination (operation : DualOperation) (address : UInt16) (width : Width) :
    Exec β UInt16 := do
  if operation = .mov then
    dummyRead address width
    return 0
  else
    readOperand address width

/-- An instruction with two general operands.  Returns the extra cycles. -/
def dual (opcode : UInt16) (operation : DualOperation) (width : Width) : Exec β Nat := do
  let (sourceAddress, sourceCycles) ← resolve (.source opcode) width
  let s ← readOperand sourceAddress width
  let (address, cycles) ← resolve (.destination opcode) width
  let d ← readDestination operation address width
  match ← combine operation width s d with
  | some value => writeOperand address width value
  | none => pure ()
  return sourceCycles + cycles

def bitwise (opcode : UInt16) (operation : BitwiseOperation) : Exec β Nat := do
  let (s, cycles) ← sourceWord opcode
  let d ← readRegister (registerField opcode)
  match operation with
  | .coc => modifySt (Word.withBit · Status.equal (s &&& d == s))
  | .czc => modifySt (Word.withBit · Status.equal (s &&& d == 0))
  | .xor =>
      modifySt (Status.compareZero · (d ^^^ s) .word)
      writeRegister (registerField opcode) (d ^^^ s)
  return cycles

/-- Keeps interrupts off until the next instruction has been executed. -/
def holdInterrupts : Exec β Unit :=
  modifyCpu ({ · with suppress := true })

/-- XOP: a context switch that hands an address over in R11.  Returns the extra cycles. -/
def xop (opcode : UInt16) : Exec β Nat := do
  let (address, cycles) ← resolve (.source opcode) .word
  contextSwitch (0x0040 + 4 * registerField opcode)
  writeRegister 11 address
  modifySt (· ||| Status.extended)
  holdInterrupts
  return cycles

/-- Writes the lowest `count` bits of a value to consecutive bits of the I/O space, lowest first. -/
def writeBits (value : UInt16) : (count : Nat) → (base : UInt16) → Exec β Unit
  | 0, _ => return
  | count + 1, base => do
      cruWrite base (value &&& 1 != 0)
      writeBits (value >>> 1) count (base + 1)

/-- Reads consecutive bits of the I/O space, lowest first, into the bits of a word from `bit`
on. -/
def readBits : (count : Nat) → (base bit : UInt16) → Exec β UInt16
  | 0, _, _ => return 0
  | count + 1, base, bit => do
      let set ← cruRead base
      let rest ← readBits count (base + 1) (bit <<< 1)
      return if set then rest ||| bit else rest

def ldcr (opcode : UInt16) : Exec β Nat := do
  let count := cruCount opcode
  let width := cruWidth count
  let (address, cycles) ← resolve (.source opcode) width
  let value ← readOperand address width
  modifySt (Status.result · value width)
  writeBits value count (← cruBase)
  return cycles + (← cpu).timing.cruPerBit.toNat * count

def stcr (opcode : UInt16) : Exec β Nat := do
  let count := cruCount opcode
  let width := cruWidth count
  let (address, cycles) ← resolve (.source opcode) width
  let value ← readBits count (← cruBase) 1
  modifySt (Status.result · value width)
  writeOperand address width value
  return cycles + stcrCycles (← cpu).config count

def mpy (opcode : UInt16) : Exec β Nat := do
  let (s, cycles) ← sourceWord opcode
  let number := registerField opcode
  let d ← readRegister number
  let product := d.toNat * s.toNat
  writeRegister number (UInt16.ofNat (product / 0x10000))
  writeRegister (number + 1) (UInt16.ofNat product)
  return cycles

/-- DIV.  A quotient that does not fit a word leaves the registers alone.  Returns the extra
cycles. -/
def div (opcode : UInt16) : Exec β Nat := do
  let (divisor, cycles) ← sourceWord opcode
  let number := registerField opcode
  let hi ← readRegister number
  if divisor ≤ hi then
    setOverflow
    return cycles
  else
    let lo ← readRegister (number + 1)
    let division ← require (Division.unsigned? hi lo divisor) ⟨0, 0⟩
    writeRegister number division.quotient
    writeRegister (number + 1) division.remainder
    modifySt (· &&& ~~~Status.overflow)
    let timing := (← cpu).timing
    return cycles + timing.divExtra.toNat +
      timing.divPerBit.toNat * Word.onesCount 16 division.quotient.toNat

def mpys (opcode : UInt16) : Exec β Nat := do
  let (s, cycles) ← sourceWord opcode
  let d ← readRegister 0
  let product := Word.toSigned d * Word.toSigned s
  writeRegister 0 (Division.wordOfInt (product / 0x10000))
  writeRegister 1 (Division.wordOfInt product)
  modifySt (Status.compareSigned · product)
  return cycles

/-- DIVS.  A quotient that does not fit a word leaves the registers alone.  Returns the extra
cycles. -/
def divs (opcode : UInt16) : Exec β Nat := do
  let (divisor, cycles) ← sourceWord opcode
  let hi ← readRegister 0
  let lo ← readRegister 1
  match Division.signedQuotient? hi lo divisor with
  | none =>
      setOverflow
      return cycles
  | some quotient =>
      let remainder ← require (Division.signedRemainder? hi lo divisor) 0
      writeRegister 0 (Division.wordOfInt quotient)
      writeRegister 1 (Division.wordOfInt remainder)
      modifySt fun st => Status.compareSigned st quotient &&& ~~~Status.overflow
      return cycles + (← cpu).timing.divExtra.toNat

def cruBit (opcode : UInt16) (operation : CruBitOperation) : Exec β Unit := do
  let bit := (← cruBase) + Word.signExtend (Word.low opcode)
  match operation with
  | .sbo => cruWrite bit true
  | .sbz => cruWrite bit false
  | .tb => do
      let value ← cruRead bit
      modifySt (Word.withBit · Status.equal value)

/-- How far a shift goes, and the cycles that it takes to find out.  A count of zero in the opcode
stands for the lowest four bits of R0, and zero there for 16. -/
def shiftCount (opcode : UInt16) : Exec β (Nat × Nat) := do
  let count := ((opcode >>> 4) &&& 0xF).toNat
  if count = 0 then
    let count := ((← readRegister 0) &&& 0xF).toNat
    let cycles := (← cpu).timing.shiftFromR0.toNat
    return (if count = 0 then 16 else count, cycles)
  else
    return (count, 0)

def shift (opcode : UInt16) (operation : ShiftOperation) : Exec β Nat := do
  let number := opcode &&& 0xF
  let (count, cycles) ← shiftCount opcode
  let value ← readRegister number
  let shifted := Shifted.shift operation count { value := value }
  writeRegister number shifted.value
  modifySt fun st =>
    Word.withBit (Status.compareZero st shifted.value .word) Status.carry shifted.carry
  if operation = .sla then
    modifySt (Word.withBit · Status.overflow shifted.overflow)
    if shifted.overflow then
      modifyCpu Cpu.overflowTrap
  return cycles + (← cpu).timing.shiftPerBit.toNat * count

def increase (address step : UInt16) : Exec β Unit := do
  let v ← readWord address
  setArithmetic (v + step) (.ofAdd v step (v + step) .word) .word
  writeWord address (v + step)

def decrease (address step : UInt16) : Exec β Unit := do
  let v ← readWord address
  setArithmetic (v - step) (.ofSub v step (v - step) .word) .word
  writeWord address (v - step)

def abs (address : UInt16) : Exec β Nat := do
  let v ← readWord address
  modifySt fun st =>
    Word.withBit (Status.compareZero st v .word &&& ~~~Status.carry) Status.overflow (v == 0x8000)
  if v &&& 0x8000 = 0 then
    return 0
  else
    writeWord address (0 - v)
    if v = 0x8000 then
      modifyCpu Cpu.overflowTrap
    return (← cpu).timing.absNegative.toNat

/-- What an instruction with one general operand does at its address.  Returns the extra cycles. -/
def singleAt (operation : SingleOperation) (address : UInt16) : Exec β Nat := do
  match operation with
  | .blwp => do
      contextSwitch address
      holdInterrupts
      return 0
  | .b => do
      modifyCpu (·.setPc address)
      return 0
  | .bl => do
      writeRegister 11 (← cpu).pc
      modifyCpu (·.setPc address)
      return 0
  | .clr => do
      writeWord address 0
      return 0
  | .seto => do
      writeWord address 0xFFFF
      return 0
  | .swpb => do
      let v ← readWord address
      writeWord address (Word.ofBytes (Word.low v) (Word.high v))
      return 0
  | .inv => do
      let v ← readWord address
      modifySt (Status.compareZero · (~~~v) .word)
      writeWord address (~~~v)
      return 0
  | .neg => do
      let v ← readWord address
      setArithmetic (0 - v) (.ofSub 0 v (0 - v) .word) .word
      writeWord address (0 - v)
      return 0
  | .inc => do
      increase address 1
      return 0
  | .inct => do
      increase address 2
      return 0
  | .dec => do
      decrease address 1
      return 0
  | .dect => do
      decrease address 2
      return 0
  | .abs => abs address

def single (opcode : UInt16) (operation : SingleOperation) : Exec β Nat := do
  let (address, cycles) ← resolve (.source opcode) .word
  let extra ← singleAt operation address
  return cycles + extra

def immediate (opcode : UInt16) (operation : ImmediateOperation) : Exec β Unit := do
  let number := opcode &&& 0xF
  let operand ← fetch
  match operation with
  | .li => do
      modifySt (Status.compareZero · operand .word)
      writeRegister number operand
  | .ai => do
      let v ← readRegister number
      setArithmetic (v + operand) (.ofAdd v operand (v + operand) .word) .word
      writeRegister number (v + operand)
  | .andi => do
      let v ← readRegister number
      modifySt (Status.compareZero · (v &&& operand) .word)
      writeRegister number (v &&& operand)
  | .ori => do
      let v ← readRegister number
      modifySt (Status.compareZero · (v ||| operand) .word)
      writeRegister number (v ||| operand)
  | .ci => do
      let v ← readRegister number
      modifySt (Status.compare · v operand .word)

def jump (opcode : UInt16) (condition : JumpCondition) : Exec β Nat := do
  let cpu ← cpu
  if condition.holds cpu.st then
    modifyCpu (·.skip (Word.signExtend (Word.low opcode)))
    return cpu.timing.jumpTaken.toNat
  else
    return 0

def rtwp : Exec β Unit := do
  let wp ← readRegister 13
  let pc ← readRegister 14
  let st ← readRegister 15
  modifyCpu (·.setSt st)
  modifyCpu (·.setPc pc)
  modifyCpu (·.setWp wp)

/-- Carries out an instruction other than X, whose opcode has been fetched.  Returns the cycles on
top of its base cost. -/
def perform (opcode : UInt16) : Instruction → Exec β Nat
  | .dual operation width => dual opcode operation width
  | .bitwise operation => bitwise opcode operation
  | .xop => xop opcode
  | .ldcr => ldcr opcode
  | .stcr => stcr opcode
  | .mpy => mpy opcode
  | .div => div opcode
  | .jump condition => jump opcode condition
  | .cruBit operation => do
      cruBit opcode operation
      return 0
  | .shift operation => shift opcode operation
  | .single operation => single opcode operation
  | .immediate operation => do
      immediate opcode operation
      return 0
  | .stwp => do
      writeRegister (opcode &&& 0xF) (← cpu).wp
      return 0
  | .stst => do
      writeRegister (opcode &&& 0xF) (← cpu).st
      return 0
  | .lwpi => do
      let wp ← fetch
      modifyCpu (·.setWp wp)
      return 0
  | .limi => do
      let level ← fetch
      modifySt (Status.withMask · (level &&& Status.mask))
      return 0
  | .idle => do
      setIdle true
      return 0
  | .rset => do
      modifySt (Status.withMask · 0)
      return 0
  | .rtwp => do
      rtwp
      return 0
  | .lst => do
      let st ← readRegister (opcode &&& 0xF)
      modifyCpu (·.setSt st)
      return 0
  | .lwp => do
      let wp ← readRegister (opcode &&& 0xF)
      modifyCpu (·.setWp wp)
      return 0
  | .divs => divs opcode
  | .mpys => mpys opcode
  | .ckon | .ckof | .lrex | .x => return 0

def illegal : Exec β Nat := do
  match (← cpu).config.illegal with
  | .ignore cycles => return cycles.toNat
  | .trap =>
      modifyCpu Cpu.illegalTrap
      return Instruction.illegalCycles.toNat

/-- Executes an opcode.  When it is X, the word that it points to is executed as an opcode in turn,
unless `depth` other words have been reached this way.  Returns the cost without wait states. -/
def executeOpcode (depth : Nat) (opcode : UInt16) : Exec β Nat := do
  let set := (← cpu).config.instructionSet
  match Instruction.ofOpcode? set opcode with
  | none => illegal
  | some .x =>
      let (target, cycles) ← sourceWord opcode
      let base := (Instruction.baseCycles set .x).toNat
      match depth with
      | 0 => return base + cycles
      | depth + 1 =>
          let cost ← executeOpcode depth target
          return base + cycles + cost
  | some instruction =>
      let extra ← perform opcode instruction
      return (Instruction.baseCycles set instruction).toNat + extra

/-- How many words a chain of X instructions can reach. -/
def maxExecuteDepth : Nat :=
  16

/-- Fetches and executes one instruction.  Returns its cost without wait states. -/
def execute : Exec β Nat := do
  executeOpcode maxExecuteDepth (← fetch)

end Exec

end TmsCores.Tms9900
