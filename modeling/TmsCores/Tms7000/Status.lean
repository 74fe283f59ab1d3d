import TmsCores.Arithmetic.Flags

namespace TmsCores.Tms7000.Status

/-- Carry.  After a subtraction it says that nothing was borrowed. -/
def carry : UInt8 :=
  0x80

def negative : UInt8 :=
  0x40

def zero : UInt8 :=
  0x20

def interruptEnable : UInt8 :=
  0x10

def mask : UInt8 :=
  0xF0

def has (st bit : UInt8) : Bool :=
  st &&& bit != 0

def bitIf (set : Bool) (bit : UInt8) : UInt8 :=
  if set then bit else 0

/-- Sign and zero follow `value`, and carry is cleared. -/
def logical (st value : UInt8) : UInt8 :=
  (st &&& interruptEnable) ||| bitIf (value == 0) zero ||| bitIf (value &&& 0x80 != 0) negative

/-- Carry, sign and zero follow the flags of an arithmetic operation. -/
def arithmetic (st : UInt8) (flags : FlagSet) : UInt8 :=
  (st &&& interruptEnable) ||| bitIf flags.carry carry ||| bitIf flags.negative negative |||
    bitIf flags.zero zero

def withCarry (st : UInt8) (set : Bool) : UInt8 :=
  if set then st ||| carry else st &&& ~~~carry

end TmsCores.Tms7000.Status
