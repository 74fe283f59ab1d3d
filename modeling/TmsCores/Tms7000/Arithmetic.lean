import TmsCores.Arithmetic.PackedDecimal
import TmsCores.Tms7000.Status

namespace TmsCores.Tms7000

/-- The byte that an operation yields, with the status register after it. -/
structure Outcome where
  value : UInt8
  st : UInt8
  deriving DecidableEq

namespace Outcome

/-- A result that sets sign and zero, with carry cleared. -/
def logical (st value : UInt8) : Outcome :=
  ⟨value, Status.logical st value⟩

/-- A result that sets sign and zero, with a given carry. -/
def withCarry (st value : UInt8) (carry : Bool) : Outcome :=
  ⟨value, Status.withCarry (Status.logical st value) carry⟩

def add (st d s : UInt8) (carryIn : Bool) : Outcome :=
  let result := d + s + carryIn.toUInt8
  ⟨result,
    Status.arithmetic st (.ofAdd d.toUInt16 s.toUInt16 result.toUInt16 .byte)⟩

def subtract (st d s : UInt8) (borrowIn : Bool) : Outcome :=
  let result := d - s - borrowIn.toUInt8
  ⟨result,
    Status.arithmetic st (.ofSub d.toUInt16 s.toUInt16 result.toUInt16 .byte)⟩

def addDecimal (st d s : UInt8) (carryIn : Bool) : Outcome :=
  let sum := PackedDecimal.add d.toUInt16 s.toUInt16
  let sum := if carryIn then PackedDecimal.add sum 1 else sum
  withCarry st sum.toUInt8 (sum > 0xFF)

/-- The packed decimal difference of `d` and `s`, and one less when a borrow comes in.  Subtracting
zero never carries out, so it is told apart. -/
def subtractDecimal (st d s : UInt8) (borrowIn : Bool) : Outcome :=
  let first := PackedDecimal.sub d.toUInt16 s.toUInt16
  let kept := first &&& 0x100 != 0 || s == 0
  if borrowIn then
    let second := PackedDecimal.sub first.toUInt8.toUInt16 1
    withCarry st second.toUInt8 (kept && second &&& 0x100 != 0)
  else
    withCarry st first.toUInt8 kept

def rotateRight (st v : UInt8) : Outcome :=
  withCarry st ((v >>> 1) ||| (v <<< 7)) (v &&& 0x01 != 0)

def rotateRightCarry (st v : UInt8) (carryIn : Bool) : Outcome :=
  withCarry st ((v >>> 1) ||| (carryIn.toUInt8 <<< 7)) (v &&& 0x01 != 0)

def rotateLeft (st v : UInt8) : Outcome :=
  withCarry st ((v <<< 1) ||| (v >>> 7)) (v &&& 0x80 != 0)

def rotateLeftCarry (st v : UInt8) (carryIn : Bool) : Outcome :=
  withCarry st ((v <<< 1) ||| carryIn.toUInt8) (v &&& 0x80 != 0)

def swap (st v : UInt8) : Outcome :=
  let result := (v <<< 4) ||| (v >>> 4)
  withCarry st result (result &&& 0x01 != 0)

end Outcome

end TmsCores.Tms7000
