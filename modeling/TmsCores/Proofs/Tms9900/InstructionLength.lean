import TmsCores.Proofs.Tms9900.Branch

namespace TmsCores.Tms9900

/-- The words of the program that an operand takes up besides the opcode.  Only the address of an
indexed operand stands there. -/
def Operand.extraWords (operand : Operand) : Nat :=
  if operand.mode = .indexed then 1 else 0

namespace Instruction

/-- The words of the program that an instruction takes up besides its opcode: those of its operands,
and an immediate value. -/
def extraWords (opcode : UInt16) : Instruction → Nat
  | .dual _ _ => (Operand.source opcode).extraWords + (Operand.destination opcode).extraWords
  | .bitwise _ | .xop | .ldcr | .stcr | .single _ | .x => (Operand.source opcode).extraWords
  | .mpy | .div | .mpys | .divs => (Operand.source opcode).extraWords
  | .immediate _ | .lwpi | .limi => 1
  | .jump _ | .cruBit _ | .shift _ | .stwp | .stst | .idle | .rset | .rtwp => 0
  | .ckon | .ckof | .lrex | .lst | .lwp => 0

/-- The words that follow an opcode.  None follows an illegal one. -/
def wordsAfter (set : InstructionSet) (opcode : UInt16) : Nat :=
  match ofOpcode? set opcode with
  | none => 0
  | some instruction => instruction.extraWords opcode

/-- The instructions after which the program does not go on with the next word, given the status
register before them. -/
def branches (st : UInt16) : Instruction → Bool
  | .jump condition => condition.holds st
  | .single .b | .single .bl | .single .blwp | .xop | .rtwp => true
  | _ => false

end Instruction

variable {α β : Type} [Bus β]

namespace Exec

/-- A part of an instruction takes up some words of the program. -/
abbrev TakesUp (words : Nat) (x : Exec β α) : Prop :=
  Advances (·.cpu.pc) (2 * words) x

namespace TakesUp

section

omit [Bus β]

theorem of_core {x : Exec β α} (h : ∀ machine, (x machine).2.cpu.core = machine.cpu.core) :
    TakesUp 0 x :=
  .of_eq fun machine => Cpu.eq_of_core (·.pc) (fun _ => rfl) (h machine)

theorem cpu : TakesUp (β := β) 0 cpu :=
  .of_eq fun _ => rfl

theorem modifySt (change : UInt16 → UInt16) : TakesUp (β := β) 0 (Exec.modifySt change) :=
  .of_eq fun _ => rfl

theorem setWp (wp : UInt16) : TakesUp (β := β) 0 (Exec.modifyCpu (·.setWp wp)) :=
  .of_eq fun _ => rfl

theorem setSt (st : UInt16) : TakesUp (β := β) 0 (Exec.modifyCpu (·.setSt st)) :=
  .of_eq fun _ => rfl

theorem overflowTrap : TakesUp (β := β) 0 (Exec.modifyCpu Cpu.overflowTrap) :=
  of_core fun machine => machine.cpu.core_overflowTrap

theorem illegal : TakesUp (β := β) 0 illegal := by
  refine cpu.after fun cpu => ?_
  split
  · exact .pure _
  · exact Advances.after (.of_eq fun _ => rfl) fun _ => .pure _

theorem setArithmetic (result : UInt16) (flags : FlagSet) (width : Width) :
    TakesUp (β := β) 0 (Exec.setArithmetic result flags width) :=
  (modifySt _).after fun _ => .ite overflowTrap (.pure _)

theorem setOverflow : TakesUp (β := β) 0 setOverflow :=
  (modifySt _).after fun _ => overflowTrap

theorem combine (operation : DualOperation) (width : Width) (s d : UInt16) :
    TakesUp (β := β) 0 (combine operation width s d) := by
  cases operation with
  | mov | szc | soc | c => exact (modifySt _).after fun _ => .pure _
  | a | s => exact (setArithmetic _ _ _).after fun _ => .pure _

end

omit [Bus β] in
theorem require {α : Type} (found : Option α) (otherwise : α) :
    TakesUp (β := β) 0 (require found otherwise) :=
  .of_eq fun _ => rfl

theorem setIdle (idle : Bool) : TakesUp (β := β) 0 (setIdle idle) :=
  .of_eq fun _ => rfl

theorem readWord (address : UInt16) : TakesUp (β := β) 0 (readWord address) :=
  .of_eq fun machine => congrArg (·.pc) (cpu_readWord address machine)

theorem writeWord (address value : UInt16) : TakesUp (β := β) 0 (writeWord address value) :=
  of_core fun _ => core_writeWord address value

theorem readByte (address : UInt16) : TakesUp (β := β) 0 (readByte address) := by
  refine cpu.after fun cpu => ?_
  split
  · exact .of_eq fun _ => rfl
  · exact .of_eq fun _ => rfl
  · split
    · exact .of_eq fun _ => rfl
    · refine (readWord address).after fun word => ?_
      exact Advances.after (.of_eq fun _ => rfl) fun _ => .pure _

theorem recallWord (address : UInt16) : TakesUp (β := β) 0 (recallWord address) := by
  intro machine
  rw [Exec.recallWord, get_bind]
  rcases machine.operandWord with _ | ⟨remembered, word⟩
  · exact readWord address machine
  · exact Advances.ite (.pure _) (readWord address) machine

theorem writeByte (address : UInt16) (value : UInt8) :
    TakesUp (β := β) 0 (writeByte address value) := by
  refine cpu.after fun cpu => ?_
  split
  · exact .of_eq fun _ => rfl
  · exact .of_eq fun _ => rfl
  · split
    · exact .of_eq fun _ => rfl
    · exact (recallWord _).after fun word => writeWord _ _

theorem readOperand (address : UInt16) (width : Width) :
    TakesUp (β := β) 0 (readOperand address width) := by
  cases width with
  | byte => exact (readByte address).after fun _ => .pure _
  | word => exact readWord address

theorem writeOperand (address : UInt16) (width : Width) (value : UInt16) :
    TakesUp (β := β) 0 (writeOperand address width value) := by
  cases width with
  | byte => exact writeByte address _
  | word => exact writeWord address value

theorem readRegister (number : UInt16) : TakesUp (β := β) 0 (readRegister number) :=
  cpu.after fun _ => readWord _

theorem writeRegister (number value : UInt16) :
    TakesUp (β := β) 0 (writeRegister number value) :=
  cpu.after fun _ => writeWord _ _

theorem cruBase : TakesUp (β := β) 0 cruBase :=
  (readRegister 12).after fun _ => .pure _

theorem cruRead (bit : UInt16) : TakesUp (β := β) 0 (cruRead bit) := by
  refine .of_eq fun machine => ?_
  rw [Exec.cruRead, get_bind]
  cases machine.cpu.internalBit? (bit &&& 0x0FFF) with
  | some | none => rfl

theorem cruWrite (bit : UInt16) (value : Bool) : TakesUp (β := β) 0 (cruWrite bit value) := by
  refine .of_eq fun machine => ?_
  rw [Exec.cruWrite, get_bind]
  cases hchanged : machine.cpu.setInternalBit? (bit &&& 0x0FFF) value with
  | some changed =>
      exact Cpu.eq_of_core (·.pc) (fun _ => rfl) (Cpu.core_of_setInternalBit? hchanged)
  | none => rfl

theorem writeBits (value : UInt16) (count : Nat) (base : UInt16) :
    TakesUp (β := β) 0 (writeBits value count base) := by
  induction count generalizing value base with
  | zero => exact .pure _
  | succ count ih => exact (cruWrite base _).after fun _ => ih _ _

theorem readBits (count : Nat) (base bit : UInt16) :
    TakesUp (β := β) 0 (readBits count base bit) := by
  induction count generalizing base bit with
  | zero => exact .pure _
  | succ count ih => exact (cruRead base).after fun _ => (ih _ _).after fun _ => .pure _

theorem dummyRead (address : UInt16) (width : Width) :
    TakesUp (β := β) 0 (dummyRead address width) :=
  cpu.after fun _ => .ite ((readOperand address width).after fun _ => .pure _) (.pure _)

theorem readDestination (operation : DualOperation) (address : UInt16) (width : Width) :
    TakesUp (β := β) 0 (readDestination operation address width) :=
  .ite ((dummyRead address width).after fun _ => .pure _) (readOperand address width)

theorem shiftCount (opcode : UInt16) : TakesUp (β := β) 0 (shiftCount opcode) :=
  .ite ((readRegister 0).after fun _ => cpu.after fun _ => .pure _) (.pure _)

theorem increase (address step : UInt16) : TakesUp (β := β) 0 (increase address step) :=
  (readWord address).after fun _ => (setArithmetic _ _ _).after fun _ => writeWord _ _

theorem decrease (address step : UInt16) : TakesUp (β := β) 0 (decrease address step) :=
  (readWord address).after fun _ => (setArithmetic _ _ _).after fun _ => writeWord _ _

theorem abs (address : UInt16) : TakesUp (β := β) 0 (abs address) := by
  refine (readWord address).after fun v => (modifySt _).after fun _ => .ite (.pure _) ?_
  refine (writeWord _ _).after fun _ => ?_
  exact .ite (overflowTrap.after fun _ => cpu.after fun _ => .pure _)
    (cpu.after fun _ => .pure _)

theorem fetch : TakesUp (β := β) 1 fetch :=
  fun machine => congrArg (·.pc) (cpu_fetch machine)

theorem operandAddress (operand : Operand) (width : Width) :
    TakesUp (β := β) operand.extraWords (operandAddress operand width) := by
  rw [Operand.extraWords, Exec.operandAddress]
  cases operand.mode with
  | register => exact cpu.after fun _ => .pure _
  | indirect => exact readRegister _
  | indexed =>
      refine fetch.before fun base => .ite (.pure _) ?_
      exact (readRegister _).after fun _ => .pure _
  | autoIncrement =>
      exact (readRegister _).after fun address => (writeRegister _ _).after fun _ => .pure _

theorem resolve (operand : Operand) (width : Width) :
    TakesUp (β := β) operand.extraWords (resolve operand width) :=
  cpu.after fun _ => (operandAddress operand width).before fun _ => .pure _

theorem sourceWord (opcode : UInt16) :
    TakesUp (β := β) (Operand.source opcode).extraWords (sourceWord opcode) :=
  (resolve _ _).before fun _ => (readWord _).after fun _ => .pure _

theorem dual (opcode : UInt16) (operation : DualOperation) (width : Width) :
    TakesUp (β := β)
      ((Operand.source opcode).extraWords + (Operand.destination opcode).extraWords)
      (dual opcode operation width) := by
  rw [TakesUp, Nat.mul_add]
  refine (resolve _ _).bind fun source => (readOperand _ _).after fun s => ?_
  refine (resolve _ _).before fun destination => ?_
  refine (readDestination _ _ _).after fun d => (combine _ _ _ _).after fun outcome => ?_
  cases outcome with
  | some value => exact (writeOperand _ _ _).after fun _ => .pure _
  | none => exact .pure _

theorem bitwise (opcode : UInt16) (operation : BitwiseOperation) :
    TakesUp (β := β) (Operand.source opcode).extraWords (bitwise opcode operation) := by
  refine (sourceWord opcode).before fun source => (readRegister _).after fun d => ?_
  cases operation with
  | coc | czc => exact (modifySt _).after fun _ => .pure _
  | xor => exact (modifySt _).after fun _ => (writeRegister _ _).after fun _ => .pure _

theorem ldcr (opcode : UInt16) :
    TakesUp (β := β) (Operand.source opcode).extraWords (ldcr opcode) := by
  refine (resolve _ _).before fun source => (readOperand _ _).after fun value => ?_
  refine (modifySt _).after fun _ => cruBase.after fun base => ?_
  exact (writeBits _ _ _).after fun _ => cpu.after fun _ => .pure _

theorem stcr (opcode : UInt16) :
    TakesUp (β := β) (Operand.source opcode).extraWords (stcr opcode) := by
  refine (resolve _ _).before fun source => cruBase.after fun base => ?_
  refine (readBits _ _ _).after fun value => (modifySt _).after fun _ => ?_
  exact (writeOperand _ _ _).after fun _ => cpu.after fun _ => .pure _

theorem mpy (opcode : UInt16) :
    TakesUp (β := β) (Operand.source opcode).extraWords (mpy opcode) := by
  refine (sourceWord opcode).before fun source => (readRegister _).after fun d => ?_
  exact (writeRegister _ _).after fun _ => (writeRegister _ _).after fun _ => .pure _

theorem mpys (opcode : UInt16) :
    TakesUp (β := β) (Operand.source opcode).extraWords (mpys opcode) := by
  refine (sourceWord opcode).before fun source => (readRegister _).after fun d => ?_
  refine (writeRegister _ _).after fun _ => (writeRegister _ _).after fun _ => ?_
  exact (modifySt _).after fun _ => .pure _

theorem div (opcode : UInt16) :
    TakesUp (β := β) (Operand.source opcode).extraWords (div opcode) := by
  refine (sourceWord opcode).before fun divisor => (readRegister _).after fun hi => ?_
  -- A division that overflows has found its divisor as well.
  refine .ite (setOverflow.after fun _ => .pure _) ((readRegister _).after fun lo => ?_)
  refine (require _ _).after fun division => ?_
  refine (writeRegister _ _).after fun _ => (writeRegister _ _).after fun _ => ?_
  exact (modifySt _).after fun _ => cpu.after fun _ => .pure _

theorem divs (opcode : UInt16) :
    TakesUp (β := β) (Operand.source opcode).extraWords (divs opcode) := by
  refine (sourceWord opcode).before fun divisor => (readRegister _).after fun hi => ?_
  refine (readRegister _).after fun lo => ?_
  split
  · exact setOverflow.after fun _ => .pure _
  · refine (require _ _).after fun remainder => ?_
    refine (writeRegister _ _).after fun _ => (writeRegister _ _).after fun _ => ?_
    exact (modifySt _).after fun _ => cpu.after fun _ => .pure _

theorem cruBit (opcode : UInt16) (operation : CruBitOperation) :
    TakesUp (β := β) 0 (cruBit opcode operation) := by
  refine cruBase.after fun base => ?_
  cases operation with
  | sbo | sbz => exact cruWrite _ _
  | tb => exact (cruRead _).after fun value => modifySt _

theorem shift (opcode : UInt16) (operation : ShiftOperation) :
    TakesUp (β := β) 0 (shift opcode operation) := by
  refine (shiftCount opcode).after fun count => (readRegister _).after fun value => ?_
  refine (writeRegister _ _).after fun _ => (modifySt _).after fun _ => ?_
  refine .ite ((modifySt _).after fun _ => ?_) (cpu.after fun _ => .pure _)
  exact .ite (overflowTrap.after fun _ => cpu.after fun _ => .pure _)
    (cpu.after fun _ => .pure _)

theorem immediate (opcode : UInt16) (operation : ImmediateOperation) :
    TakesUp (β := β) 1 (immediate opcode operation) := by
  refine fetch.before fun operand => ?_
  cases operation with
  | li => exact (modifySt _).after fun _ => writeRegister _ _
  | ai =>
      exact (readRegister _).after fun v =>
        (setArithmetic _ _ _).after fun _ => writeRegister _ _
  | andi | ori =>
      exact (readRegister _).after fun v => (modifySt _).after fun _ => writeRegister _ _
  | ci => exact (readRegister _).after fun v => modifySt _

theorem single {operation : SingleOperation} {st : UInt16}
    (h : (Instruction.single operation).branches st = false) (opcode : UInt16) :
    TakesUp (β := β) (Operand.source opcode).extraWords (single opcode operation) := by
  refine (resolve _ _).before fun source => ?_
  suffices hat : TakesUp (β := β) 0 (singleAt operation source.1) from hat.after fun _ => .pure _
  cases operation with
  | blwp | b | bl => exact absurd h nofun
  | clr | seto => exact (writeWord _ _).after fun _ => .pure _
  | swpb => exact (readWord _).after fun v => (writeWord _ _).after fun _ => .pure _
  | inv =>
      exact (readWord _).after fun v =>
        (modifySt _).after fun _ => (writeWord _ _).after fun _ => .pure _
  | neg =>
      exact (readWord _).after fun v =>
        (setArithmetic _ _ _).after fun _ => (writeWord _ _).after fun _ => .pure _
  | inc | inct => exact (increase _ _).after fun _ => .pure _
  | dec | dect => exact (decrease _ _).after fun _ => .pure _
  | abs => exact abs _

end TakesUp

/-- An instruction that does not branch takes up its own words and no more, whatever it finds its
operands to be. -/
theorem pc_perform {instruction : Instruction} {machine : Machine β}
    (h : instruction.branches machine.cpu.st = false) (hx : instruction ≠ .x) (opcode : UInt16) :
    (perform opcode instruction machine).2.cpu.pc =
      machine.cpu.pc + .ofNat (2 * instruction.extraWords opcode) := by
  suffices hplain : (∀ condition, instruction ≠ .jump condition) →
      TakesUp (β := β) (instruction.extraWords opcode) (perform opcode instruction) by
    cases instruction with
    | jump condition =>
        have hfalls : condition.holds machine.cpu.st = false := h
        change (jump opcode condition machine).2.cpu.pc = machine.cpu.pc + 0
        rw [jump_snd, hfalls, if_neg Bool.false_ne_true, UInt16.add_zero]
    | _ => exact hplain nofun machine
  intro hjump
  cases instruction with
  | jump condition => exact absurd rfl (hjump condition)
  | x => exact absurd rfl hx
  | xop | rtwp => exact absurd h nofun
  | dual operation width => exact .dual opcode operation width
  | bitwise operation => exact .bitwise opcode operation
  | ldcr => exact .ldcr opcode
  | stcr => exact .stcr opcode
  | mpy => exact .mpy opcode
  | div => exact .div opcode
  | mpys => exact .mpys opcode
  | divs => exact .divs opcode
  | cruBit operation => exact (TakesUp.cruBit opcode operation).after fun _ => .pure _
  | shift operation => exact .shift opcode operation
  | single operation => exact .single h opcode
  | immediate operation => exact (TakesUp.immediate opcode operation).before fun _ => .pure _
  | stwp | stst =>
      exact TakesUp.cpu.after fun _ => (TakesUp.writeRegister _ _).after fun _ => .pure _
  | lwpi => exact TakesUp.fetch.before fun wp => (TakesUp.setWp wp).after fun _ => .pure _
  | limi => exact TakesUp.fetch.before fun level => (TakesUp.modifySt _).after fun _ => .pure _
  | idle => exact (TakesUp.setIdle true).after fun _ => .pure _
  | rset => exact (TakesUp.modifySt _).after fun _ => .pure _
  | lst =>
      exact (TakesUp.readRegister _).after fun st => (TakesUp.setSt st).after fun _ => .pure _
  | lwp =>
      exact (TakesUp.readRegister _).after fun wp => (TakesUp.setWp wp).after fun _ => .pure _
  | ckon | ckof | lrex => exact .pure _

end Exec

end TmsCores.Tms9900
