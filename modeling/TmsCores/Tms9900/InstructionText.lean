import TmsCores.Text.Term
import TmsCores.Tms9900.Instruction

namespace TmsCores

def Width.name : Width → String
  | .byte => "Byte"
  | .word => "Word"

namespace Tms9900

def DualOperation.name : DualOperation → String
  | .szc => "Szc"
  | .s => "S"
  | .c => "C"
  | .a => "A"
  | .mov => "Mov"
  | .soc => "Soc"

def BitwiseOperation.name : BitwiseOperation → String
  | .coc => "Coc"
  | .czc => "Czc"
  | .xor => "Xor"

def JumpCondition.name : JumpCondition → String
  | .jmp => "Jmp"
  | .jlt => "Jlt"
  | .jle => "Jle"
  | .jeq => "Jeq"
  | .jhe => "Jhe"
  | .jgt => "Jgt"
  | .jne => "Jne"
  | .jnc => "Jnc"
  | .joc => "Joc"
  | .jno => "Jno"
  | .jl => "Jl"
  | .jh => "Jh"
  | .jop => "Jop"

def CruBitOperation.name : CruBitOperation → String
  | .sbo => "Sbo"
  | .sbz => "Sbz"
  | .tb => "Tb"

def ShiftOperation.name : ShiftOperation → String
  | .sra => "Sra"
  | .srl => "Srl"
  | .sla => "Sla"
  | .src => "Src"

def SingleOperation.name : SingleOperation → String
  | .blwp => "Blwp"
  | .b => "B"
  | .clr => "Clr"
  | .neg => "Neg"
  | .inv => "Inv"
  | .inc => "Inc"
  | .inct => "Inct"
  | .dec => "Dec"
  | .dect => "Dect"
  | .bl => "Bl"
  | .swpb => "Swpb"
  | .seto => "Seto"
  | .abs => "Abs"

def ImmediateOperation.name : ImmediateOperation → String
  | .li => "Li"
  | .ai => "Ai"
  | .andi => "Andi"
  | .ori => "Ori"
  | .ci => "Ci"

namespace Instruction

/-- An instruction as it is listed: its mnemonic or its group, with the parts that pick it out of
the group. -/
def text : Instruction → String
  | .dual operation width => TermText.text "TwoOp" [operation.name, width.name]
  | .bitwise operation => operation.name
  | .xop => "Xop"
  | .ldcr => "Ldcr"
  | .stcr => "Stcr"
  | .mpy => "Mpy"
  | .div => "Div"
  | .jump condition => TermText.text "Jump" [condition.name]
  | .cruBit operation => TermText.text "Cru" [operation.name]
  | .shift operation => TermText.text "Shift" [operation.name]
  | .single operation => TermText.text "Single" [operation.name]
  | .x => TermText.text "Single" ["X"]
  | .immediate operation => TermText.text "Immediate" [operation.name]
  | .stwp => "Stwp"
  | .stst => "Stst"
  | .lwpi => "Lwpi"
  | .limi => "Limi"
  | .idle => "Idle"
  | .rset => "Rset"
  | .rtwp => "Rtwp"
  | .ckon => "Ckon"
  | .ckof => "Ckof"
  | .lrex => "Lrex"
  | .lst => "Lst"
  | .lwp => "Lwp"
  | .divs => "Divs"
  | .mpys => "Mpys"

def listing : Option Instruction → String
  | some instruction => instruction.text
  | none => "Illegal"

end Instruction

end Tms9900

end TmsCores
