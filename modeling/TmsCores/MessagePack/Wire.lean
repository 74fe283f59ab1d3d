import TmsCores.MessagePack.Head

namespace TmsCores.MessagePack

def readMany {α : Type} (item : List UInt8 → Option (α × List UInt8)) :
    (count : Nat) → List UInt8 → Option (List α × List UInt8)
  | 0, bytes => some ([], bytes)
  | count + 1, bytes => do
      let (first, bytes) ← item bytes
      let (others, bytes) ← readMany item count bytes
      return (first :: others, bytes)

def readEntry {α : Type} (item : List UInt8 → Option (α × List UInt8)) (bytes : List UInt8) :
    Option ((α × α) × List UInt8) := do
  let (key, bytes) ← item bytes
  let (value, bytes) ← item bytes
  return ((key, value), bytes)

namespace Value

/-- Reads what follows the head of a value.  Arrays and maps read their parts by `part?`, and cannot
be read without it. -/
def readBody (part? : Option (List UInt8 → Option (Value × List UInt8))) (head : Head)
    (bytes : List UInt8) : Option (Value × List UInt8) :=
  match head with
  | .complete value => some (value, bytes)
  | .text size => do
      let (content, bytes) ← takeBytes? size bytes
      return (.text content, bytes)
  | .binary size => do
      let (content, bytes) ← takeBytes? size bytes
      return (.binary content, bytes)
  | .extension size => do
      let (kind, bytes) ← readNumber? 1 UInt8.ofNat bytes
      let (content, bytes) ← takeBytes? size bytes
      return (.extension kind content, bytes)
  | .array size => do
      let (items, bytes) ← readMany (← part?) size bytes
      return (.array items, bytes)
  | .map size => do
      let (entries, bytes) ← readMany (readEntry (← part?)) size bytes
      return (.map entries, bytes)

/-- Reads a value whose arrays and maps are nested at most `depth` deep, and returns what follows
it. -/
def readNested (depth : Nat) (bytes : List UInt8) : Option (Value × List UInt8) := do
  let (head, bytes) ← Head.read? bytes
  let part? :=
    match depth with
    | 0 => none
    | depth + 1 => some (readNested depth)
  readBody part? head bytes

/-- Reads the value that some bytes begin with.  Whatever follows it is ignored.  There is room for
the levels of a record and for an alternative on the way down. -/
def read? (bytes : List UInt8) : Option Value :=
  (readNested (maxDepth + 1) bytes).map (·.1)

mutual

/-- A value as bytes, all of its parts in their shortest form. -/
def write : Value → List UInt8
  | .nil => [0xC0]
  | .bool value => [if value then 0xC3 else 0xC2]
  | .unsigned value => Head.writeUnsigned value
  | .signed value => Head.writeSigned value
  | .float32 bits => 0xCA :: BigEndian.bytes 4 bits
  | .float64 bits => 0xCB :: BigEndian.bytes 8 bits
  | .text bytes => Head.writeText bytes.length ++ bytes
  | .binary bytes => Head.writeBinary bytes.length ++ bytes
  | .extension kind bytes => Head.writeExtension bytes.length ++ kind :: bytes
  | .array items => Head.writeArray items.length ++ writeItems items
  | .map entries => Head.writeMap entries.length ++ writeEntries entries

def writeItems : List Value → List UInt8
  | [] => []
  | item :: rest => item.write ++ writeItems rest

def writeEntries : List (Value × Value) → List UInt8
  | [] => []
  | (key, value) :: rest => key.write ++ (value.write ++ writeEntries rest)

end

end Value

end TmsCores.MessagePack
