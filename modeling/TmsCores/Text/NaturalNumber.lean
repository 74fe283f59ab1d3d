namespace TmsCores.NaturalNumber

def digitValue? (c : Char) : Option Nat :=
  if '0' ≤ c ∧ c ≤ '9' then some (c.toNat - 48) else none

/-- Continues a number whose leading digits have the value `value`. -/
def continue? (value : Nat) : List Char → Option Nat
  | [] => some value
  | c :: rest => (digitValue? c).bind fun digit => continue? (value * 10 + digit) rest

def ofDigits? : List Char → Option Nat
  | [] => none
  | digits => continue? 0 digits

/-- Reads a number as decimal digits, zeros in front allowed, after at most one plus sign. -/
def parse? : List Char → Option Nat
  | '+' :: digits => ofDigits? digits
  | digits => ofDigits? digits

end TmsCores.NaturalNumber
