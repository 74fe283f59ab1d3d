import TmsCores.Text.NaturalNumber

namespace TmsCores.Tms9900

inductive Register
  | pc
  | wp
  | st
  /-- A register of the workspace, if its number is below 16. -/
  | r (number : UInt8)
  deriving DecidableEq

def Register.name : Register → String
  | .pc => "PC"
  | .wp => "WP"
  | .st => "ST"
  | .r number => "R" ++ toString number.toNat

def Register.ofName? (name : String) : Option Register :=
  match name.toList with
  | ['P', 'C'] => some .pc
  | ['W', 'P'] => some .wp
  | ['S', 'T'] => some .st
  | 'R' :: digits =>
      (NaturalNumber.parse? digits).bind fun number =>
        if number < 256 then some (.r (UInt8.ofNat number)) else none
  | _ => none

structure MissingRegister where
  register : Register
  deriving DecidableEq

def MissingRegister.message (error : MissingRegister) : String :=
  "no register " ++ error.register.name ++ " on the TMS9900"

end TmsCores.Tms9900
