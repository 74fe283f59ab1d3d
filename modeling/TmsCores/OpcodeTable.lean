import TmsCores.Text.Record

namespace TmsCores

/-- A decoded opcode: what to do, and what it costs before extras that depend on operands. -/
structure OpcodeEntry (Operation : Type) where
  operation : Operation
  cycles : UInt8
  deriving DecidableEq

/-- What a processor does with an opcode that stands for no instruction. -/
inductive IllegalOpcode
  /-- Spend some cycles and go on. -/
  | ignore (cycles : UInt8)
  /-- Raise the internal trap of the chip. -/
  | trap
  deriving DecidableEq

namespace IllegalOpcode

def text : IllegalOpcode → String
  | .ignore cycles => RecordText.text "Ignore" [("cycles", toString cycles.toNat)]
  | .trap => "Trap"

theorem ignore_pos {policy : IllegalOpcode} (h : policy ≠ .ignore 0) {cycles : UInt8}
    (hpolicy : policy = .ignore cycles) : 0 < cycles.toNat := by
  have hnonzero : cycles ≠ 0 := fun hzero => h (hpolicy.trans (congrArg _ hzero))
  exact UInt8.lt_iff_toNat_lt.mp (UInt8.pos_iff_ne_zero.mpr hnonzero)

end IllegalOpcode

/-- A map from opcodes to entries: the opcodes count the entries from zero. -/
structure OpcodeTable (Operation : Type) where
  entries : Array (OpcodeEntry Operation)

inductive OpcodeTableError
  | sizeNotPowerOfTwo
  deriving DecidableEq

def OpcodeTableError.message : OpcodeTableError → String
  | .sizeNotPowerOfTwo => "dispatch table size must be a power of two"

namespace OpcodeTable

variable {Operation : Type}

/-- The table whose entries `decode` yields, called once for each opcode in increasing order. -/
def ofDecoderM {m : Type → Type} [Monad m] (size : Nat)
    (decode : UInt32 → m (OpcodeEntry Operation)) : m (OpcodeTable Operation) := do
  let entries ← Vector.ofFnM fun opcode : Fin size => decode (UInt32.ofNat opcode.val)
  pure ⟨entries.toArray⟩

/-- The table of a decoder that only looks at the opcode. -/
def ofDecoder (size : Nat) (decode : UInt32 → OpcodeEntry Operation) : OpcodeTable Operation where
  entries := Array.ofFn fun opcode : Fin size => decode (UInt32.ofNat opcode.val)

/-- The table with `size` entries, if the size is a power of two.  Entries are counted in 32 bits,
so that a power of two beyond them makes a table without entries. -/
def build {m : Type → Type} [Monad m] (size : Nat)
    (decode : UInt32 → m (OpcodeEntry Operation)) :
    m (Except OpcodeTableError (OpcodeTable Operation)) :=
  if 1 <<< size.log2 = size then
    Except.ok <$> ofDecoderM (UInt32.ofNat size).toNat decode
  else
    pure (.error .sizeNotPowerOfTwo)

def size (table : OpcodeTable Operation) : Nat :=
  table.entries.size

/-- The entry of an opcode.  Bits above the table's size are ignored, so that only a table without
entries has none. -/
def get? (table : OpcodeTable Operation) (opcode : UInt32) : Option (OpcodeEntry Operation) :=
  table.entries[opcode.toNat &&& (table.size - 1)]?

/-- The opcodes with their entries, in increasing order. -/
def toList (table : OpcodeTable Operation) : List (UInt32 × OpcodeEntry Operation) :=
  table.entries.toList.zipIdx.map fun (entry, opcode) => (UInt32.ofNat opcode, entry)

theorem get?_ofDecoder (bits : Nat) (decode : UInt32 → OpcodeEntry Operation) (opcode : UInt32) :
    (ofDecoder (1 <<< bits) decode).get? opcode =
      some (decode (UInt32.ofNat (opcode.toNat % (1 <<< bits)))) := by
  have hlt : opcode.toNat % 2 ^ bits < 2 ^ bits := Nat.mod_lt _ (Nat.two_pow_pos bits)
  simp [get?, size, ofDecoder, Nat.one_shiftLeft, Nat.and_two_pow_sub_one_eq_mod, hlt]

end OpcodeTable

end TmsCores
