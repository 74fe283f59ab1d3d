import TmsCores.Tms9900.Machine

namespace TmsCores.Tms9900

inductive AddressMode
  /-- `Rn`: the register itself. -/
  | register
  /-- `*Rn`: the register holds the address. -/
  | indirect
  /-- `@addr` or `@addr(Rn)`: the next word of the program, plus a register unless it is R0. -/
  | indexed
  /-- `*Rn+`: the register holds the address, and moves on past the operand. -/
  | autoIncrement
  deriving DecidableEq

def AddressMode.ofBits (bits : UInt16) : AddressMode :=
  match (bits &&& 3).toNat with
  | 0 => .register
  | 1 => .indirect
  | 2 => .indexed
  | _ => .autoIncrement

def ModeCycles.of (cycles : ModeCycles) : AddressMode → UInt8
  | .register => cycles.register
  | .indirect => cycles.indirect
  | .indexed => cycles.indexed
  | .autoIncrement => cycles.autoIncrement

structure Operand where
  mode : AddressMode
  register : UInt16
  deriving DecidableEq

namespace Operand

def source (opcode : UInt16) : Operand where
  mode := .ofBits (opcode >>> 4)
  register := opcode &&& 0xF

def destination (opcode : UInt16) : Operand where
  mode := .ofBits (opcode >>> 10)
  register := (opcode >>> 6) &&& 0xF

def size : Width → UInt16
  | .byte => 1
  | .word => 2

end Operand

def Timing.mode (timing : Timing) : Width → ModeCycles
  | .byte => timing.byteMode
  | .word => timing.wordMode

namespace Exec

variable {β : Type} [Bus β]

def operandAddress (operand : Operand) (width : Width) : Exec β UInt16 :=
  match operand.mode with
  | .register => return (← cpu).registerAddress operand.register
  | .indirect => readRegister operand.register
  | .indexed => do
      let base ← fetch
      if operand.register = 0 then
        return base
      else
        return base + (← readRegister operand.register)
  | .autoIncrement => do
      let address ← readRegister operand.register
      writeRegister operand.register (address + Operand.size width)
      return address

/-- The address of an operand, and the cycles that it takes to find it. -/
def resolve (operand : Operand) (width : Width) : Exec β (UInt16 × Nat) := do
  let cycles := ((← cpu).timing.mode width).of operand.mode
  let address ← operandAddress operand width
  return (address, cycles.toNat)

end Exec

end TmsCores.Tms9900
