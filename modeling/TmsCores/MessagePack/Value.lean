namespace TmsCores.MessagePack

/-- A MessagePack value.  Text and floating point numbers are kept as they are stored. -/
inductive Value
  | nil
  | bool (value : Bool)
  /-- A number in one of the unsigned forms. -/
  | unsigned (value : Nat)
  /-- A number in one of the signed forms. -/
  | signed (value : Int)
  | float32 (bits : Nat)
  | float64 (bits : Nat)
  | text (bytes : List UInt8)
  | binary (bytes : List UInt8)
  | extension (kind : UInt8) (bytes : List UInt8)
  | array (items : List Value)
  | map (entries : List (Value × Value))

namespace Value

mutual

/-- How many levels of arrays, maps and extensions a value has. -/
def depth : Value → Nat
  | .extension _ _ => 1
  | .array items => itemsDepth items + 1
  | .map entries => entriesDepth entries + 1
  | _ => 0

def itemsDepth : List Value → Nat
  | [] => 0
  | item :: rest => max item.depth (itemsDepth rest)

def entriesDepth : List (Value × Value) → Nat
  | [] => 0
  | (key, value) :: rest => max (max key.depth value.depth) (entriesDepth rest)

end

/-- How many levels a record may have altogether.  The map that marks an alternative is none. -/
def maxDepth : Nat :=
  1023

end Value

end TmsCores.MessagePack
