import TmsCores.Text.Hexadecimal

namespace TmsCores

inductive Observation
  | flag (value : Bool)
  | byte (value : UInt8)
  | word (value : UInt16)
  | long (value : UInt32)
  | count (value : UInt64)
  | offset (value : Int16)
  | name (value : String)
  | group (items : List Observation)

namespace Observation

def kind : Observation → String
  | .flag _ => "Bool"
  | .byte _ => "U8"
  | .word _ => "U16"
  | .long _ => "U32"
  | .count _ => "U64"
  | .offset _ => "I16"
  | .name _ => "String"
  | .group _ => "Array"

def toUInt64? : Observation → Option UInt64
  | .byte value => some value.toUInt64
  | .word value => some value.toUInt64
  | .long value => some value.toUInt64
  | .count value => some value
  | .flag _ | .offset _ | .name _ | .group _ => none

mutual

/-- Registers are written in hexadecimal at their width, counts and offsets in decimal. -/
def text : Observation → String
  | .flag value => if value then "true" else "false"
  | .byte value => Hexadecimal.text 2 value.toNat
  | .word value => Hexadecimal.text 4 value.toNat
  | .long value => Hexadecimal.text 8 value.toNat
  | .count value => toString value.toNat
  | .offset value => toString value.toInt
  | .name value => value
  | .group items => "[" ++ ", ".intercalate (texts items) ++ "]"

def texts : List Observation → List String
  | [] => []
  | item :: rest => item.text :: texts rest

end

end Observation

end TmsCores
