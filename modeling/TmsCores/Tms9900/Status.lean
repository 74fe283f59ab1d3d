import TmsCores.Arithmetic.Flags

namespace TmsCores.Tms9900.Status

/-- Logical greater than: greater as unsigned numbers. -/
def logicalGreater : UInt16 :=
  0x8000

/-- Arithmetic greater than: greater as signed numbers. -/
def arithmeticGreater : UInt16 :=
  0x4000

def equal : UInt16 :=
  0x2000

def carry : UInt16 :=
  0x1000

def overflow : UInt16 :=
  0x0800

def parity : UInt16 :=
  0x0400

/-- An extended operation is in progress. -/
def extended : UInt16 :=
  0x0200

/-- An overflow requests an interrupt, on chips that can. -/
def overflowInterrupt : UInt16 :=
  0x0020

def mask : UInt16 :=
  0x000F

/-- The three bits that compare. -/
def comparison : UInt16 :=
  logicalGreater ||| arithmeticGreater ||| equal

def has (st bit : UInt16) : Bool :=
  st &&& bit != 0

def compareZero (st value : UInt16) (width : Width) : UInt16 :=
  let v := value &&& width.mask
  let rest := st &&& ~~~comparison
  if v = 0 then rest ||| equal
  else if v &&& width.signBit = 0 then rest ||| logicalGreater ||| arithmeticGreater
  else rest ||| logicalGreater

/-- Compares a result with zero, and takes the parity of a byte. -/
def result (st value : UInt16) (width : Width) : UInt16 :=
  match width with
  | .byte => Word.withBit (compareZero st value .byte) parity (oddParity (Word.low value))
  | .word => compareZero st value .word

/-- Follows the result and the flags of an arithmetic operation. -/
def arithmetic (st value : UInt16) (flags : FlagSet) (width : Width) : UInt16 :=
  Word.withBit (Word.withBit (result st value width) carry flags.carry) overflow flags.overflow

def compare (st s d : UInt16) (width : Width) : UInt16 :=
  let s := s &&& width.mask
  let d := d &&& width.mask
  let flip := width.signBit
  let rest := st &&& ~~~comparison
  let rest := Word.withBit rest equal (s == d)
  let rest := Word.withBit rest logicalGreater (s > d)
  Word.withBit rest arithmeticGreater ((s ^^^ flip) > (d ^^^ flip))

/-- Compares a signed result of any size with zero. -/
def compareSigned (st : UInt16) (value : Int) : UInt16 :=
  let rest := st &&& ~~~comparison
  if value = 0 then rest ||| equal
  else if value > 0 then rest ||| logicalGreater ||| arithmeticGreater
  else rest ||| logicalGreater

def withMask (st level : UInt16) : UInt16 :=
  (st &&& ~~~mask) ||| level

end TmsCores.Tms9900.Status
