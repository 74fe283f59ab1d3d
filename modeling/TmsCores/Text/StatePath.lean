import TmsCores.Text.NaturalNumber

namespace TmsCores.StatePath

/-- Reads `r` and a number, the name of a register. -/
def register? : List Char → Option Nat
  | 'r' :: digits => NaturalNumber.parse? digits
  | _ => none

/-- Reads `irq.`, the number of a line below 256, a dot, and what is asked about the line. -/
def interruptLine? : List Char → Option (UInt8 × String)
  | 'i' :: 'r' :: 'q' :: '.' :: rest =>
      match rest.dropWhile (· != '.') with
      | [] => none
      | _ :: field =>
          match NaturalNumber.parse? (rest.takeWhile (· != '.')) with
          | none => none
          | some line =>
              if line < 256 then some (UInt8.ofNat line, String.ofList field) else none
  | _ => none

end TmsCores.StatePath
