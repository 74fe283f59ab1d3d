import TmsCores.Text.Term
import TmsCores.Tms7000.Instruction

namespace TmsCores.Tms7000

def DualForm.name : DualForm → String
  | .bToA => "BA"
  | .registerToA => "RnA"
  | .immediateToA => "ImmA"
  | .registerToB => "RnB"
  | .immediateToB => "ImmB"
  | .registerToRegister => "RnRn"
  | .immediateToRegister => "ImmRn"

def DualOperation.name : DualOperation → String
  | .mov => "Mov"
  | .and => "And"
  | .or => "Or"
  | .xor => "Xor"
  | .btjo => "Btjo"
  | .btjz => "Btjz"
  | .add => "Add"
  | .adc => "Adc"
  | .sub => "Sub"
  | .sbb => "Sbb"
  | .mpy => "Mpy"
  | .cmp => "Cmp"
  | .dac => "Dac"
  | .dsb => "Dsb"

def PeripheralSource.name : PeripheralSource → String
  | .a => "A"
  | .b => "B"
  | .immediate => "Imm"

/-- The mnemonic of an operation, without its final P. -/
def PeripheralOperation.name : PeripheralOperation → String
  | .mov => "Mov"
  | .and => "And"
  | .or => "Or"
  | .xor => "Xor"
  | .btjo => "Btjo"
  | .btjz => "Btjz"

def ExtendedMode.name : ExtendedMode → String
  | .direct => "Direct"
  | .indirect => "Indirect"
  | .indexed => "Indexed"

def ExtendedOperation.name : ExtendedOperation → String
  | .movd => "Movd"
  | .lda => "Lda"
  | .sta => "Sta"
  | .br => "Br"
  | .cmpa => "Cmpa"
  | .call => "Call"

def Target.name : Target → String
  | .a => "A"
  | .b => "B"
  | .register => "Rn"

def SingleOperation.name : SingleOperation → String
  | .dec => "Dec"
  | .inc => "Inc"
  | .inv => "Inv"
  | .clr => "Clr"
  | .xchb => "Xchb"
  | .swap => "Swap"
  | .push => "Push"
  | .pop => "Pop"
  | .djnz => "Djnz"
  | .decd => "Decd"
  | .rr => "Rr"
  | .rrc => "Rrc"
  | .rl => "Rl"
  | .rlc => "Rlc"

def Condition.name : Condition → String
  | .always => "Always"
  | .negative => "Negative"
  | .equal => "Equal"
  | .carry => "Carry"
  | .positive => "Positive"
  | .positiveOrZero => "PositiveOrZero"
  | .notEqual => "NotEqual"
  | .noCarry => "NoCarry"

namespace Instruction

/-- An instruction as it is listed: its mnemonic or its group, with the parts that pick it out of
the group. -/
def text : Instruction → String
  | .nop => "Nop"
  | .idle => "Idle"
  | .eint => "Eint"
  | .dint => "Dint"
  | .setc => "Setc"
  | .popSt => "PopSt"
  | .pushSt => "PushSt"
  | .stsp => "Stsp"
  | .ldsp => "Ldsp"
  | .rets => "Rets"
  | .reti => "Reti"
  | .dual operation form => TermText.text "Dual" [operation.name, form.name]
  | .movp .a => "MovpToA"
  | .movp .b => "MovpToB"
  | .peripheral operation source => TermText.text "Periph" [operation.name, source.name]
  | .extended operation mode => TermText.text operation.name [mode.name]
  | .clrc => "Clrc"
  | .movAB => "MovAB"
  | .tstb => "Tstb"
  | .movToRegister .a => "MovARn"
  | .movToRegister .b => "MovBRn"
  | .single operation target => TermText.text "Unary" [operation.name, target.name]
  | .jump condition => TermText.text "Jump" [condition.name]
  | .trap number => TermText.text "Trap" [toString number.toNat]

def listing : Option Instruction → String
  | some instruction => instruction.text
  | none => "Illegal"

end Instruction

end TmsCores.Tms7000
