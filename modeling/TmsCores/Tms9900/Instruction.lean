import TmsCores.Arithmetic.Flags
import TmsCores.Tms9900.Config

namespace TmsCores.Tms9900

inductive DualOperation
  | szc
  | s
  | c
  | a
  | mov
  | soc
  deriving DecidableEq

inductive BitwiseOperation
  | coc
  | czc
  | xor
  deriving DecidableEq

inductive JumpCondition
  | jmp
  | jlt
  | jle
  | jeq
  | jhe
  | jgt
  | jne
  | jnc
  | joc
  | jno
  | jl
  | jh
  | jop
  deriving DecidableEq

inductive CruBitOperation
  | sbo
  | sbz
  | tb
  deriving DecidableEq

inductive ShiftOperation
  | sra
  | srl
  | sla
  | src
  deriving DecidableEq

inductive SingleOperation
  | blwp
  | b
  | clr
  | neg
  | inv
  | inc
  | inct
  | dec
  | dect
  | bl
  | swpb
  | seto
  | abs
  deriving DecidableEq

inductive ImmediateOperation
  | li
  | ai
  | andi
  | ori
  | ci
  deriving DecidableEq

/-- The instructions.  Operands stay in the opcode. -/
inductive Instruction
  | dual (operation : DualOperation) (width : Width)
  | bitwise (operation : BitwiseOperation)
  | xop
  | ldcr
  | stcr
  | mpy
  | div
  | jump (condition : JumpCondition)
  | cruBit (operation : CruBitOperation)
  | shift (operation : ShiftOperation)
  | single (operation : SingleOperation)
  /-- Executes the word at an address as an instruction. -/
  | x
  | immediate (operation : ImmediateOperation)
  | stwp
  | stst
  | lwpi
  | limi
  | idle
  | rset
  | rtwp
  | ckon
  | ckof
  | lrex
  | lst
  | lwp
  | divs
  | mpys
  deriving DecidableEq

namespace Instruction

def wideCycles : Instruction → UInt8
  | .dual _ _ | .bitwise _ => 14
  | .xop => 36
  | .ldcr => 20
  | .stcr => 42
  | .mpy => 52
  | .div => 16
  | .jump _ => 8
  | .cruBit _ | .shift _ => 12
  | .single .blwp => 26
  | .single .b | .x => 8
  | .single .bl | .single .neg | .single .abs => 12
  | .single _ => 10
  | .immediate .li => 12
  | .immediate _ => 14
  | .stwp | .stst => 8
  | .lwpi => 10
  | .limi => 16
  | .idle | .rset | .ckon | .ckof | .lrex => 12
  | .rtwp => 14
  | .lst | .lwp | .divs | .mpys => 0

def narrowCycles : Instruction → UInt8
  | .dual .mov _ => 3
  | .dual _ _ | .bitwise _ => 4
  | .xop => 15
  | .ldcr => 9
  | .stcr => 19
  | .mpy => 23
  | .div => 6
  | .jump _ => 3
  | .cruBit _ => 8
  | .shift _ => 5
  | .single .blwp => 11
  | .single .b => 3
  | .x => 2
  | .single .bl => 5
  | .single .neg | .single .abs | .single .clr | .single .seto | .single .swpb => 3
  | .single .inv | .single .inc | .single .inct | .single .dec | .single .dect => 4
  | .immediate .li => 3
  | .immediate _ => 4
  | .stwp | .stst => 3
  | .lwpi => 4
  | .limi => 5
  | .idle | .rset | .ckon | .ckof | .lrex => 7
  | .rtwp => 6
  | .lst => 5
  | .lwp => 4
  | .divs => 11
  | .mpys => 25

def baseCycles : InstructionSet → Instruction → UInt8
  | .tms9900, instruction => wideCycles instruction
  | .tms9995, instruction => narrowCycles instruction

def illegalCycles : UInt8 :=
  6

/-- The opcodes from 4000 on, with two general operands. -/
def dualOfOpcode (opcode : UInt16) : Instruction :=
  let width := if opcode &&& 0x1000 = 0 then Width.word else Width.byte
  match (opcode >>> 13).toNat with
  | 2 => .dual .szc width
  | 3 => .dual .s width
  | 4 => .dual .c width
  | 5 => .dual .a width
  | 6 => .dual .mov width
  | _ => .dual .soc width

/-- The opcodes 2000 to 3FFF, with a general source and a register or a count. -/
def registerOfOpcode (opcode : UInt16) : Instruction :=
  match ((opcode >>> 10) &&& 7).toNat with
  | 0 => .bitwise .coc
  | 1 => .bitwise .czc
  | 2 => .bitwise .xor
  | 3 => .xop
  | 4 => .ldcr
  | 5 => .stcr
  | 6 => .mpy
  | _ => .div

/-- The opcodes 1000 to 1FFF, with a displacement. -/
def displacementOfOpcode (opcode : UInt16) : Instruction :=
  match ((opcode >>> 8) &&& 0xF).toNat with
  | 0x0 => .jump .jmp
  | 0x1 => .jump .jlt
  | 0x2 => .jump .jle
  | 0x3 => .jump .jeq
  | 0x4 => .jump .jhe
  | 0x5 => .jump .jgt
  | 0x6 => .jump .jne
  | 0x7 => .jump .jnc
  | 0x8 => .jump .joc
  | 0x9 => .jump .jno
  | 0xA => .jump .jl
  | 0xB => .jump .jh
  | 0xC => .jump .jop
  | 0xD => .cruBit .sbo
  | 0xE => .cruBit .sbz
  | _ => .cruBit .tb

/-- The opcodes 0800 to 0BFF. -/
def shiftOfOpcode (opcode : UInt16) : Instruction :=
  match ((opcode >>> 8) &&& 3).toNat with
  | 0 => .shift .sra
  | 1 => .shift .srl
  | 2 => .shift .sla
  | _ => .shift .src

/-- The opcodes 0400 to 07FF, with one general operand. -/
def singleOfOpcode? (opcode : UInt16) : Option Instruction :=
  match ((opcode >>> 6) &&& 0xF).toNat with
  | 0x0 => some (.single .blwp)
  | 0x1 => some (.single .b)
  | 0x2 => some .x
  | 0x3 => some (.single .clr)
  | 0x4 => some (.single .neg)
  | 0x5 => some (.single .inv)
  | 0x6 => some (.single .inc)
  | 0x7 => some (.single .inct)
  | 0x8 => some (.single .dec)
  | 0x9 => some (.single .dect)
  | 0xA => some (.single .bl)
  | 0xB => some (.single .swpb)
  | 0xC => some (.single .seto)
  | 0xD => some (.single .abs)
  | _ => none

/-- The opcodes 0200 to 03FF, with an immediate operand or none, each with the bits that it does
not use. -/
def controlOfOpcode? (opcode : UInt16) : Option (Instruction × UInt16) :=
  match ((opcode >>> 5) &&& 0xF).toNat with
  | 0x0 => some (.immediate .li, 0x0010)
  | 0x1 => some (.immediate .ai, 0x0010)
  | 0x2 => some (.immediate .andi, 0x0010)
  | 0x3 => some (.immediate .ori, 0x0010)
  | 0x4 => some (.immediate .ci, 0x0010)
  | 0x5 => some (.stwp, 0x0010)
  | 0x6 => some (.stst, 0x0010)
  | 0x7 => some (.lwpi, 0x001F)
  | 0x8 => some (.limi, 0x001F)
  | 0xA => some (.idle, 0x001F)
  | 0xB => some (.rset, 0x001F)
  | 0xC => some (.rtwp, 0x001F)
  | 0xD => some (.ckon, 0x001F)
  | 0xE => some (.ckof, 0x001F)
  | 0xF => some (.lrex, 0x001F)
  | _ => none

/-- The opcodes below 0200, which only the TMS9995 has. -/
def narrowOfOpcode? (opcode : UInt16) : Option Instruction :=
  if 0x0080 ≤ opcode && opcode ≤ 0x008F then some .lst
  else if 0x0090 ≤ opcode && opcode ≤ 0x009F then some .lwp
  else if 0x0180 ≤ opcode && opcode ≤ 0x01BF then some .divs
  else if 0x01C0 ≤ opcode && opcode ≤ 0x01FF then some .mpys
  else none

/-- The instruction of an opcode.  The TMS9900 ignores unused bits, and the TMS9995 takes no opcode
in which one of them is set. -/
def ofOpcode? (set : InstructionSet) (opcode : UInt16) : Option Instruction :=
  if 0x4000 ≤ opcode then some (dualOfOpcode opcode)
  else if 0x2000 ≤ opcode then some (registerOfOpcode opcode)
  else if 0x1000 ≤ opcode then some (displacementOfOpcode opcode)
  else if 0x0C00 ≤ opcode then none
  else if 0x0800 ≤ opcode then some (shiftOfOpcode opcode)
  else if 0x0400 ≤ opcode then singleOfOpcode? opcode
  else if 0x0200 ≤ opcode then
    (controlOfOpcode? opcode).bind fun (instruction, unused) =>
      if set = .tms9995 ∧ opcode &&& unused ≠ 0 then none else some instruction
  else if set = .tms9995 then narrowOfOpcode? opcode
  else none

def decode (set : InstructionSet) (opcode : UInt16) : OpcodeEntry (Option Instruction) :=
  match ofOpcode? set opcode with
  | some instruction => ⟨some instruction, baseCycles set instruction⟩
  | none => ⟨none, illegalCycles⟩

def tableOf (set : InstructionSet) : OpcodeTable (Option Instruction) :=
  .ofDecoder UInt16.size fun opcode => decode set opcode.toUInt16

def wideTable : OpcodeTable (Option Instruction) :=
  tableOf .tms9900

def narrowTable : OpcodeTable (Option Instruction) :=
  tableOf .tms9995

def table : InstructionSet → OpcodeTable (Option Instruction)
  | .tms9900 => wideTable
  | .tms9995 => narrowTable

theorem table_eq (set : InstructionSet) : table set = tableOf set := by
  cases set with
  | tms9900 => rfl
  | tms9995 => rfl

/-- An opcode is looked up by its low word. -/
theorem get?_table (set : InstructionSet) (opcode : UInt32) :
    (table set).get? opcode = some (decode set opcode.toUInt16) := by
  have hlow : (UInt32.ofNat (opcode.toNat % (1 <<< 16))).toUInt16 = opcode.toUInt16 := by
    apply UInt16.toNat_inj.mp
    simp
  rw [table_eq]
  change (OpcodeTable.ofDecoder (1 <<< 16) _).get? opcode = _
  rw [OpcodeTable.get?_ofDecoder, hlow]

end Instruction

end TmsCores.Tms9900
