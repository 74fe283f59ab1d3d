import TmsCores.MessagePack.Value

namespace TmsCores.MessagePack

def nameBytes (name : String) : List UInt8 :=
  name.toList.map fun c => UInt8.ofNat c.toNat

inductive KeyMeaning
  | position (index : Nat)
  | unknown
  deriving DecidableEq

/-- What a key stands for: it spells a name, or it counts the names from zero.  Only text, binary
data and unsigned numbers can be keys. -/
def keyMeaning? (names : List String) : Value → Option KeyMeaning
  | .text bytes | .binary bytes =>
      some <|
        match names.findIdx? (nameBytes · == bytes) with
        | some index => .position index
        | none => .unknown
  | .unsigned n => some (if n < names.length then .position n else .unknown)
  | _ => none

namespace Value

/-- An alternative that stores nothing. -/
def name (name : String) : Value :=
  .text (nameBytes name)

/-- Some bytes as an array of numbers. -/
def ofBytes (bytes : List UInt8) : Value :=
  .array (bytes.map fun byte => .unsigned byte.toNat)

/-- A record as a map from the names of its fields. -/
def record (fields : List (String × Value)) : Value :=
  .map (fields.map fun (field, value) => (.name field, value))

/-- A byte of binary data as a number.  Such a number never counts names. -/
def ofByte (byte : UInt8) : Value :=
  .signed byte.toNat

/-- One entry of a record at some level goes into the slot of its field.  Entries that belong to no
field are skipped, unless they are nested too deep, and a field may be given only once. -/
def fillSlot? (level : Nat) (names : List String) (slots : List (Option Value))
    (entry : Value × Value) : Option (List (Option Value)) :=
  match keyMeaning? names entry.1 with
  | none => none
  | some .unknown => if level + entry.2.depth ≤ maxDepth then some slots else none
  | some (.position index) =>
      match slots[index]? with
      | some none => some (slots.set index (some entry.2))
      | _ => none

/-- The fields of a record in the order of `names`.  They are given as a map, in any order, as an
array of exactly these fields, or as binary data whose first bytes are the fields.  The outermost
record is at level 1. -/
def fields? (level : Nat) (names : List String) : Value → Option (List Value)
  | .array items => if items.length = names.length then some items else none
  | .binary bytes =>
      if names.length ≤ bytes.length then some ((bytes.take names.length).map ofByte) else none
  | .map entries => do
      let slots ← entries.foldlM (fillSlot? level names) (List.replicate names.length none)
      slots.mapM id
  | _ => none

/-- The number that a value holds, in any form that is not negative. -/
def toNat? : Value → Option Nat
  | .unsigned n => some n
  | .signed n => if 0 ≤ n then some n.toNat else none
  | _ => none

/-- The number that a value holds, if it is below `bound`. -/
def toNatBelow? (bound : Nat) (value : Value) : Option Nat :=
  value.toNat?.filter (· < bound)

def toUInt8? (value : Value) : Option UInt8 :=
  (value.toNatBelow? UInt8.size).map UInt8.ofNat

def toUInt16? (value : Value) : Option UInt16 :=
  (value.toNatBelow? UInt16.size).map UInt16.ofNat

def toUInt32? (value : Value) : Option UInt32 :=
  (value.toNatBelow? UInt32.size).map UInt32.ofNat

def toUInt64? (value : Value) : Option UInt64 :=
  (value.toNatBelow? UInt64.size).map UInt64.ofNat

def toBool? : Value → Option Bool
  | .bool value => some value
  | _ => none

/-- The items of an array or the bytes of binary data, each read in the same way. -/
def toListOf? {α : Type} (item? : Value → Option α) : Value → Option (List α)
  | .array items => items.mapM item?
  | .binary bytes => (bytes.map ofByte).mapM item?
  | _ => none

/-- An alternative: its position among `names`, and what is stored with it.  An alternative that
stores something is a map with one entry. -/
def alternative? (names : List String) : Value → Option (Nat × Option Value)
  | .map [(key, content)] =>
      match keyMeaning? names key with
      | some (.position index) => some (index, some content)
      | _ => none
  | .map _ => none
  | key =>
      match keyMeaning? names key with
      | some (.position index) => some (index, none)
      | _ => none

/-- One of some alternatives that store nothing. -/
def choice? {α : Type} (options : List (String × α)) (value : Value) : Option α :=
  match value.alternative? (options.map (·.1)) with
  | some (index, none) | some (index, some .nil) => options[index]?.map (·.2)
  | _ => none

end Value

end TmsCores.MessagePack
