import TmsCores.Arithmetic.Word

namespace TmsCores

inductive Width
  | byte
  | word
  deriving DecidableEq

namespace Width

def mask : Width → UInt16
  | .byte => 0x00FF
  | .word => 0xFFFF

def signBit : Width → UInt16
  | .byte => 0x0080
  | .word => 0x8000

def bits : Width → Nat
  | .byte => 8
  | .word => 16

end Width

/-- The conditions that one operation of an arithmetic unit reports. -/
structure FlagSet where
  /-- Carry out of an addition; no borrow in a subtraction. -/
  carry : Bool := false
  /-- The signed result does not fit. -/
  overflow : Bool := false
  zero : Bool := false
  negative : Bool := false
  /-- The low byte of the result has an odd number of ones. -/
  parity : Bool := false
  deriving DecidableEq

def oddParity (value : UInt8) : Bool :=
  Word.onesCount 8 value.toNat % 2 == 1

namespace FlagSet

/-- The letters of the flags that are set. -/
def letters (flags : FlagSet) : List Char :=
  [(flags.carry, 'c'), (flags.overflow, 'v'), (flags.zero, 'z'), (flags.negative, 'n'),
    (flags.parity, 'p')].filterMap fun (set, letter) => if set then some letter else none

/-- The flags whose letters occur in a list. -/
def ofLetters (letters : List Char) : FlagSet where
  carry := letters.contains 'c'
  overflow := letters.contains 'v'
  zero := letters.contains 'z'
  negative := letters.contains 'n'
  parity := letters.contains 'p'

theorem ofLetters_letters (flags : FlagSet) : ofLetters flags.letters = flags := by
  rcases flags with ⟨_ | _, _ | _, _ | _, _ | _, _ | _⟩ <;> decide

/-- Flags of a logical operation or a move: what its result alone tells. -/
def ofResult (result : UInt16) (width : Width) : FlagSet where
  zero := result &&& width.mask == 0
  negative := result &&& width.signBit != 0
  parity := oddParity (Word.low result)

/-- Flags of the addition `result = a + b`, or `a + b + 1` when a carry came in.  The carry out of
the top bit is read off the sign bits of operands and result, which already hold the carry in. -/
def ofAdd (a b result : UInt16) (width : Width) : FlagSet :=
  { ofResult result width with
    carry := ((a &&& b) ||| ((a ||| b) &&& ~~~result)) &&& width.signBit != 0
    overflow := (a ^^^ result) &&& (b ^^^ result) &&& width.signBit != 0 }

/-- Flags of the subtraction `result = a - b`, or `a - b - 1` when a borrow came in.  Carry means
that no borrow left the top bit. -/
def ofSub (a b result : UInt16) (width : Width) : FlagSet :=
  { ofResult result width with
    carry := ((~~~a &&& b) ||| ((~~~a ||| b) &&& result)) &&& width.signBit == 0
    overflow := (a ^^^ b) &&& (a ^^^ result) &&& width.signBit != 0 }

end FlagSet

end TmsCores
