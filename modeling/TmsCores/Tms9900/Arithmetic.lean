import TmsCores.Tms9900.Instruction
import TmsCores.Tms9900.Status

namespace TmsCores.Tms9900

def JumpCondition.holds (condition : JumpCondition) (st : UInt16) : Bool :=
  let greater := Status.has st Status.logicalGreater
  let equal := Status.has st Status.equal
  match condition with
  | .jmp => true
  | .jlt => !Status.has st Status.arithmeticGreater && !equal
  | .jle => !greater || equal
  | .jeq => equal
  | .jhe => greater || equal
  | .jgt => Status.has st Status.arithmeticGreater
  | .jne => !equal
  | .jnc => !Status.has st Status.carry
  | .joc => Status.has st Status.carry
  | .jno => !Status.has st Status.overflow
  | .jl => !greater && !equal
  | .jh => greater && !equal
  | .jop => Status.has st Status.parity

/-- A word that is being shifted, with the bit shifted out last and whether the sign has changed on
the way. -/
structure Shifted where
  value : UInt16
  carry : Bool := false
  overflow : Bool := false
  deriving DecidableEq

namespace Shifted

def shiftOnce (operation : ShiftOperation) (shifted : Shifted) : Shifted :=
  let v := shifted.value
  match operation with
  | .sra => { shifted with value := (v >>> 1) ||| (v &&& 0x8000), carry := v &&& 1 != 0 }
  | .srl => { shifted with value := v >>> 1, carry := v &&& 1 != 0 }
  | .sla =>
      { value := v <<< 1
        carry := v &&& 0x8000 != 0
        overflow := shifted.overflow || ((v <<< 1) ^^^ v) &&& 0x8000 != 0 }
  | .src => { shifted with value := (v >>> 1) ||| (v <<< 15), carry := v &&& 1 != 0 }

def shift (operation : ShiftOperation) : (count : Nat) → Shifted → Shifted
  | 0, shifted => shifted
  | count + 1, shifted => shift operation count (shifted.shiftOnce operation)

end Shifted

structure Division where
  quotient : UInt16
  remainder : UInt16
  deriving DecidableEq

namespace Division

/-- The number whose more significant word is `hi`. -/
def joinWords (hi lo : UInt16) : Nat :=
  hi.toNat * 0x10000 + lo.toNat

/-- An unsigned division.  Its quotient is sure to fit when the divisor exceeds `hi`. -/
def unsigned (hi lo divisor : UInt16) : Division where
  quotient := UInt16.ofNat (joinWords hi lo / divisor.toNat)
  remainder := UInt16.ofNat (joinWords hi lo % divisor.toNat)

def unsigned? (hi lo divisor : UInt16) : Option Division :=
  if divisor = 0 then none else some (unsigned hi lo divisor)

def joinSigned (hi lo : UInt16) : Int :=
  Word.toSigned hi * 0x10000 + lo.toNat

def wordOfInt (n : Int) : UInt16 :=
  UInt16.ofNat (n % 0x10000).toNat

/-- The signed quotient, rounded towards zero, if there is one that fits a word. -/
def signedQuotient? (hi lo divisor : UInt16) : Option Int :=
  let quotient := (joinSigned hi lo).tdiv (Word.toSigned divisor)
  if divisor ≠ 0 ∧ -0x8000 ≤ quotient ∧ quotient < 0x8000 then some quotient else none

/-- The remainder of a signed division, which has the sign of the dividend. -/
def signedRemainder (hi lo divisor : UInt16) : Int :=
  (joinSigned hi lo).tmod (Word.toSigned divisor)

def signedRemainder? (hi lo divisor : UInt16) : Option Int :=
  if divisor = 0 then none else some (signedRemainder hi lo divisor)

end Division

end TmsCores.Tms9900
