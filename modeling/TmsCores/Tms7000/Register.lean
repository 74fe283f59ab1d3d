import TmsCores.Text.NaturalNumber

namespace TmsCores.Tms7000

inductive Register
  | pc
  | sp
  | st
  | a
  | b
  /-- A byte of the register file, if the file is that large. -/
  | r (number : UInt16)
  deriving DecidableEq

def Register.name : Register → String
  | .pc => "PC"
  | .sp => "SP"
  | .st => "ST"
  | .a => "A"
  | .b => "B"
  | .r number => "R" ++ toString number.toNat

def Register.ofName? (name : String) : Option Register :=
  match name.toList with
  | ['P', 'C'] => some .pc
  | ['S', 'P'] => some .sp
  | ['S', 'T'] => some .st
  | ['A'] => some .a
  | ['B'] => some .b
  | 'R' :: digits =>
      (NaturalNumber.parse? digits).bind fun number =>
        if number < 65536 then some (.r (UInt16.ofNat number)) else none
  | _ => none

structure MissingRegister where
  register : Register
  deriving DecidableEq

def MissingRegister.message (error : MissingRegister) : String :=
  "no register " ++ error.register.name ++ " on this variant"

end TmsCores.Tms7000
