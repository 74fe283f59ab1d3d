import TmsCores.Arithmetic.BigEndian
import TmsCores.MessagePack.Value

namespace TmsCores.MessagePack

/-- What the first bytes of a value tell: the whole value, or its kind and the number of bytes,
items or entries that follow. -/
inductive Head
  | complete (value : Value)
  | text (size : Nat)
  | binary (size : Nat)
  | extension (size : Nat)
  | array (size : Nat)
  | map (size : Nat)

/-- Splits off the first `count` bytes, if there are so many. -/
def takeBytes? (count : Nat) (bytes : List UInt8) : Option (List UInt8 × List UInt8) :=
  if count ≤ bytes.length then some (bytes.take count, bytes.drop count) else none

/-- Reads a big-endian number of `width` bytes and makes something of it. -/
def readNumber? {α : Type} (width : Nat) (make : Nat → α) (bytes : List UInt8) :
    Option (α × List UInt8) :=
  (takeBytes? width bytes).map fun (number, rest) => (make (BigEndian.value number), rest)

def readSigned? (width : Nat) (bytes : List UInt8) : Option (Head × List UInt8) :=
  (takeBytes? width bytes).map fun (number, rest) =>
    (.complete (.signed (BigEndian.signedValue number)), rest)

namespace Head

/-- The head that a first byte from C0 to DF starts, and the rest of the input.  Byte C1 is
reserved. -/
def ofMarker? (marker : Nat) (bytes : List UInt8) : Option (Head × List UInt8) :=
  match marker with
  | 0xC0 => some (.complete .nil, bytes)
  | 0xC2 => some (.complete (.bool false), bytes)
  | 0xC3 => some (.complete (.bool true), bytes)
  | 0xC4 => readNumber? 1 .binary bytes
  | 0xC5 => readNumber? 2 .binary bytes
  | 0xC6 => readNumber? 4 .binary bytes
  | 0xC7 => readNumber? 1 .extension bytes
  | 0xC8 => readNumber? 2 .extension bytes
  | 0xC9 => readNumber? 4 .extension bytes
  | 0xCA => readNumber? 4 (.complete ∘ .float32) bytes
  | 0xCB => readNumber? 8 (.complete ∘ .float64) bytes
  | 0xCC => readNumber? 1 (.complete ∘ .unsigned) bytes
  | 0xCD => readNumber? 2 (.complete ∘ .unsigned) bytes
  | 0xCE => readNumber? 4 (.complete ∘ .unsigned) bytes
  | 0xCF => readNumber? 8 (.complete ∘ .unsigned) bytes
  | 0xD0 => readSigned? 1 bytes
  | 0xD1 => readSigned? 2 bytes
  | 0xD2 => readSigned? 4 bytes
  | 0xD3 => readSigned? 8 bytes
  | 0xD4 => some (.extension 1, bytes)
  | 0xD5 => some (.extension 2, bytes)
  | 0xD6 => some (.extension 4, bytes)
  | 0xD7 => some (.extension 8, bytes)
  | 0xD8 => some (.extension 16, bytes)
  | 0xD9 => readNumber? 1 .text bytes
  | 0xDA => readNumber? 2 .text bytes
  | 0xDB => readNumber? 4 .text bytes
  | 0xDC => readNumber? 2 .array bytes
  | 0xDD => readNumber? 4 .array bytes
  | 0xDE => readNumber? 2 .map bytes
  | 0xDF => readNumber? 4 .map bytes
  | _ => none

def read? : List UInt8 → Option (Head × List UInt8)
  | [] => none
  | first :: rest =>
      let marker := first.toNat
      if marker < 0x80 then some (.complete (.unsigned marker), rest)
      else if marker < 0x90 then some (.map (marker - 0x80), rest)
      else if marker < 0xA0 then some (.array (marker - 0x90), rest)
      else if marker < 0xC0 then some (.text (marker - 0xA0), rest)
      else if marker < 0xE0 then ofMarker? marker rest
      else some (.complete (.signed ((marker : Int) - 0x100)), rest)

/-- An unsigned number in its shortest form. -/
def writeUnsigned (n : Nat) : List UInt8 :=
  if n < 0x80 then [UInt8.ofNat n]
  else if n < 0x100 then 0xCC :: BigEndian.bytes 1 n
  else if n < 0x10000 then 0xCD :: BigEndian.bytes 2 n
  else if n < 0x100000000 then 0xCE :: BigEndian.bytes 4 n
  else 0xCF :: BigEndian.bytes 8 n

/-- A signed number in its shortest signed form. -/
def writeSigned (n : Int) : List UInt8 :=
  if -0x20 ≤ n ∧ n < 0 then BigEndian.bytes 1 (n + 0x100).toNat
  else if -0x80 ≤ n ∧ n < 0x80 then 0xD0 :: BigEndian.bytes 1 (n % 0x100).toNat
  else if -0x8000 ≤ n ∧ n < 0x8000 then 0xD1 :: BigEndian.bytes 2 (n % 0x10000).toNat
  else if -0x80000000 ≤ n ∧ n < 0x80000000 then
    0xD2 :: BigEndian.bytes 4 (n % 0x100000000).toNat
  else 0xD3 :: BigEndian.bytes 8 (n % 0x10000000000000000).toNat

/-- The head of a text, in its shortest form. -/
def writeText (size : Nat) : List UInt8 :=
  if size < 0x20 then [UInt8.ofNat (0xA0 + size)]
  else if size < 0x100 then 0xD9 :: BigEndian.bytes 1 size
  else if size < 0x10000 then 0xDA :: BigEndian.bytes 2 size
  else 0xDB :: BigEndian.bytes 4 size

def writeBinary (size : Nat) : List UInt8 :=
  if size < 0x100 then 0xC4 :: BigEndian.bytes 1 size
  else if size < 0x10000 then 0xC5 :: BigEndian.bytes 2 size
  else 0xC6 :: BigEndian.bytes 4 size

def writeExtension (size : Nat) : List UInt8 :=
  match size with
  | 1 => [0xD4]
  | 2 => [0xD5]
  | 4 => [0xD6]
  | 8 => [0xD7]
  | 16 => [0xD8]
  | _ =>
      if size < 0x100 then 0xC7 :: BigEndian.bytes 1 size
      else if size < 0x10000 then 0xC8 :: BigEndian.bytes 2 size
      else 0xC9 :: BigEndian.bytes 4 size

def writeArray (size : Nat) : List UInt8 :=
  if size < 0x10 then [UInt8.ofNat (0x90 + size)]
  else if size < 0x10000 then 0xDC :: BigEndian.bytes 2 size
  else 0xDD :: BigEndian.bytes 4 size

def writeMap (size : Nat) : List UInt8 :=
  if size < 0x10 then [UInt8.ofNat (0x80 + size)]
  else if size < 0x10000 then 0xDE :: BigEndian.bytes 2 size
  else 0xDF :: BigEndian.bytes 4 size

end Head

end TmsCores.MessagePack
