import TmsCores.Proofs.Correspondence
import TmsCores.Proofs.Tms7000.Status
import TmsCores.Tms7000.Execution

namespace TmsCores.Tms7000

variable {α β γ : Type} [Bus β] [Bus γ] {R : Machine β → Machine γ → Prop}

omit [Bus β] in
theorem Exec.cpu_bind (f : Cpu → Exec β α) (machine : Machine β) :
    (cpu >>= f) machine = f machine.cpu machine :=
  rfl

omit [Bus β] [Bus γ] in
theorem Exec.corresponds_cpu (hcpu : ∀ {m n}, R m n → m.cpu = n.cpu) {f : Cpu → Exec β α}
    {g : Cpu → Exec γ α} (hfg : ∀ m n, R m n → Corresponds R (f n.cpu) (g n.cpu)) :
    Corresponds R (cpu >>= f) (cpu >>= g) := by
  intro m n hmn
  change (f m.cpu m).1 = (g n.cpu n).1 ∧ R (f m.cpu m).2 (g n.cpu n).2
  rw [hcpu hmn]
  exact hfg m n hmn m n hmn

/-- A relation between machines that reads respect, and moves of the program counter and the stack
pointer. -/
structure ReadSimulation (R : Machine β → Machine γ → Prop) : Prop where
  sameCpu : ∀ {m n}, R m n → m.cpu = n.cpu
  read : ∀ address, Corresponds R (Exec.read address) (Exec.read address)
  readPeripheral : ∀ number,
    Corresponds R (Exec.readPeripheral number) (Exec.readPeripheral number)
  readAccumulator : ∀ accumulator,
    Corresponds R (Exec.readAccumulator accumulator) (Exec.readAccumulator accumulator)
  setPc : ∀ pc, Corresponds R (Exec.setPc pc) (Exec.setPc pc)
  setSp : ∀ sp, Corresponds R (Exec.setSp sp) (Exec.setSp sp)

/-- A relation between machines that reads and register writes of instructions respect. -/
structure OperandSimulation (R : Machine β → Machine γ → Prop) : Prop extends ReadSimulation R where
  writeRegister : ∀ number value,
    Corresponds R (Exec.writeRegister number value) (Exec.writeRegister number value)
  writeAccumulator : ∀ accumulator value,
    Corresponds R (Exec.writeAccumulator accumulator value)
      (Exec.writeAccumulator accumulator value)

/-- A relation between machines that reads and register writes of instructions respect, and what
instructions do to the status register other than to load it.  Whatever is put together from these
respects it as well. -/
structure RegisterSimulation (R : Machine β → Machine γ → Prop) : Prop
    extends OperandSimulation R where
  setFlags : ∀ {change : UInt8 → UInt8}, (∀ st, Status.Follows st (change st)) →
    Corresponds R (Exec.modifySt change) (Exec.modifySt change)
  clearSt : Corresponds R (Exec.modifySt fun _ => 0) (Exec.modifySt fun _ => 0)

/-- A relation between machines that writes of all kinds respect. -/
structure StoreSimulation (R : Machine β → Machine γ → Prop) : Prop where
  write : ∀ address value,
    Corresponds R (Exec.write address value) (Exec.write address value)
  writePeripheral : ∀ number value,
    Corresponds R (Exec.writePeripheral number value) (Exec.writePeripheral number value)

/-- A relation between machines that all writes and all changes of the status register respect as
well. -/
structure Simulation (R : Machine β → Machine γ → Prop) : Prop
    extends RegisterSimulation R, StoreSimulation R where
  modifySt : ∀ {change}, (∀ st, Status.IsStored (change st)) →
    Corresponds R (Exec.modifySt change) (Exec.modifySt change)
  writeRegister number value := write number.toUInt16 value
  setFlags hchange := modifySt fun st => (hchange st).isStored
  clearSt := modifySt fun _ => by decide

namespace Instruction

/-- The instructions that put a new value into the status register, and may enable interrupts. -/
def LoadsStatus (instruction : Instruction) : Prop :=
  instruction = .eint ∨ instruction = .popSt ∨ instruction = .reti

def keepsStatus : Instruction → Bool
  | .nop | .idle | .pushSt | .stsp | .ldsp | .rets | .jump _ | .trap _ => true
  | .extended .br _ | .extended .call _ | .single .djnz _ => true
  | _ => false

def Stores : Instruction → Prop
  | .peripheral .btjo _ | .peripheral .btjz _ => False
  | .peripheral _ _ | .extended .sta _ => True
  | _ => False

end Instruction

namespace ReadSimulation

variable (h : ReadSimulation R)

include h

theorem inspect {f : Cpu → Exec β α} {g : Cpu → Exec γ α}
    (hfg : ∀ cpu, Corresponds R (f cpu) (g cpu)) :
    Corresponds R (Exec.cpu >>= f) (Exec.cpu >>= g) :=
  Exec.corresponds_cpu h.sameCpu fun _ n _ => hfg n.cpu

theorem readWord (address : UInt16) :
    Corresponds R (Exec.readWord address) (Exec.readWord address) := by
  refine (h.read address).bind fun hi => ?_
  exact (h.read (address + 1)).bind fun lo => .pure _

theorem readRegister (number : UInt8) :
    Corresponds R (Exec.readRegister number) (Exec.readRegister number) :=
  h.read number.toUInt16

theorem readPair (number : UInt8) :
    Corresponds R (Exec.readPair number) (Exec.readPair number) := by
  refine (h.readRegister (number - 1)).bind fun hi => ?_
  exact (h.readRegister number).bind fun lo => .pure _

theorem fetch : Corresponds R Exec.fetch Exec.fetch := by
  refine h.inspect fun cpu => ?_
  refine (h.read cpu.pc).bind fun value => ?_
  exact (h.setPc (cpu.pc + 1)).seq (.pure value)

theorem fetchWord : Corresponds R Exec.fetchWord Exec.fetchWord := by
  refine h.fetch.bind fun hi => ?_
  exact h.fetch.bind fun lo => .pure _

theorem pop : Corresponds R Exec.pop Exec.pop := by
  refine h.inspect fun cpu => ?_
  refine (h.read cpu.sp.toUInt16).bind fun value => ?_
  exact (h.setSp (cpu.sp - 1)).seq (.pure value)

theorem popPc : Corresponds R Exec.popPc Exec.popPc := by
  refine h.pop.bind fun lo => ?_
  exact h.pop.bind fun hi => h.setPc _

theorem jumpRelative (offset : UInt8) :
    Corresponds R (Exec.jumpRelative offset) (Exec.jumpRelative offset) :=
  h.inspect fun _ => h.setPc _

theorem branchIf (taken : Bool) :
    Corresponds R (Exec.branchIf taken) (Exec.branchIf taken) := by
  refine h.fetch.bind fun offset => ?_
  exact .ite ((h.jumpRelative offset).seq (.pure _)) (.pure 0)

theorem dualOperands (form : DualForm) :
    Corresponds R (Exec.dualOperands form) (Exec.dualOperands form) := by
  cases form with
  | bToA => exact (h.readAccumulator .b).bind fun _ => .pure _
  | registerToA | registerToB =>
      refine h.fetch.bind fun source => ?_
      exact (h.readRegister source).bind fun _ => .pure _
  | immediateToA | immediateToB => exact h.fetch.bind fun _ => .pure _
  | registerToRegister =>
      refine h.fetch.bind fun source => ?_
      refine h.fetch.bind fun destination => ?_
      exact (h.readRegister source).bind fun _ => .pure _
  | immediateToRegister =>
      refine h.fetch.bind fun source => ?_
      exact h.fetch.bind fun destination => .pure _

theorem peripheralSource (source : PeripheralSource) :
    Corresponds R (Exec.peripheralSource source) (Exec.peripheralSource source) := by
  cases source with
  | a => exact h.readAccumulator .a
  | b => exact h.readAccumulator .b
  | immediate => exact h.fetch

theorem extendedOperand (mode : ExtendedMode) :
    Corresponds R (Exec.extendedOperand mode) (Exec.extendedOperand mode) := by
  cases mode with
  | direct => exact h.fetchWord
  | indirect => exact h.fetch.bind fun number => h.readPair number
  | indexed =>
      refine h.fetchWord.bind fun base => ?_
      exact (h.readAccumulator .b).bind fun _ => .pure _

theorem targetNumber (target : Target) :
    Corresponds R (Exec.targetNumber target) (Exec.targetNumber target) := by
  cases target with
  | a | b => exact .pure _
  | register => exact h.fetch

end ReadSimulation

namespace OperandSimulation

variable (h : OperandSimulation R)

include h

theorem writePair (number : UInt8) (value : UInt16) :
    Corresponds R (Exec.writePair number value) (Exec.writePair number value) :=
  (h.writeRegister (number - 1) _).seq (h.writeRegister number _)

theorem push (value : UInt8) : Corresponds R (Exec.push value) (Exec.push value) := by
  refine h.inspect fun cpu => ?_
  exact (h.setSp (cpu.sp + 1)).seq (h.writeRegister (cpu.sp + 1) value)

theorem pushPc : Corresponds R Exec.pushPc Exec.pushPc :=
  h.inspect fun _ => (h.push _).seq (h.push _)

theorem trap (number : UInt8) : Corresponds R (Exec.trap number) (Exec.trap number) := by
  refine h.pushPc.seq ?_
  exact (h.readWord _).bind fun pc => h.setPc pc

theorem illegal : Corresponds R Exec.illegal Exec.illegal := by
  refine h.inspect fun cpu => ?_
  cases cpu.config.illegal with
  | ignore cycles => exact .pure _
  | trap => exact (h.trap 0).seq (.pure _)

/-- What leaves the status register alone needs no more than reads and register writes. -/
theorem perform {instruction : Instruction} (hkeeps : instruction.keepsStatus = true)
    (hidle : instruction = .idle → Corresponds R (Exec.setIdle true) (Exec.setIdle true)) :
    Corresponds R (Exec.perform instruction) (Exec.perform instruction) := by
  cases instruction with
  | nop => exact .pure 0
  | idle => exact (hidle rfl).seq (.pure 0)
  | pushSt => exact h.inspect fun cpu => (h.push cpu.st).seq (.pure 0)
  | stsp => exact h.inspect fun cpu => (h.writeAccumulator .b cpu.sp).seq (.pure 0)
  | ldsp =>
      refine (h.readAccumulator .b).bind fun sp => ?_
      exact (h.setSp sp).seq (.pure 0)
  | rets => exact h.popPc.seq (.pure 0)
  | extended operation mode =>
      cases operation with
      | br =>
          have hbr : Corresponds R (Exec.extended .br mode) (Exec.extended .br mode) :=
            (h.extendedOperand mode).bind fun operand => h.setPc operand
          exact hbr.seq (.pure 0)
      | call =>
          have hcall : Corresponds R (Exec.extended .call mode) (Exec.extended .call mode) :=
            (h.extendedOperand mode).bind fun operand => h.pushPc.seq (h.setPc operand)
          exact hcall.seq (.pure 0)
      | movd | lda | sta | cmpa => exact absurd hkeeps nofun
  | single operation target =>
      cases operation with
      | djnz =>
          refine (h.targetNumber target).bind fun number => ?_
          refine (h.readRegister number).bind fun v => ?_
          exact (h.writeRegister number (v - 1)).seq (h.branchIf _)
      | _ => exact absurd hkeeps nofun
  | jump condition =>
      refine h.inspect fun cpu => ?_
      exact (h.branchIf (condition.holds cpu.st)).bind fun _ => .pure _
  | trap number => exact (h.trap number).seq (.pure 0)
  | _ => exact absurd hkeeps nofun

end OperandSimulation

namespace RegisterSimulation

variable (h : RegisterSimulation R)

include h

theorem setLogical (value : UInt8) :
    Corresponds R (Exec.modifySt (Status.logical · value))
      (Exec.modifySt (Status.logical · value)) :=
  h.setFlags fun st => .logical st value

theorem branchOnBits (bits : UInt8) :
    Corresponds R (Exec.branchOnBits bits) (Exec.branchOnBits bits) :=
  (h.setLogical bits).seq (h.branchIf _)

theorem applyOutcome (number : UInt8) (outcome : UInt8 → Outcome)
    (houtcome : ∀ st, (outcome st).SetsFlags st) :
    Corresponds R
      (do
        Exec.storeOutcome number (outcome (← Exec.cpu).st)
        return 0 : Exec β Nat)
      (do
        Exec.storeOutcome number (outcome (← Exec.cpu).st)
        return 0) := by
  intro m n hmn
  have hst : m.cpu.st = n.cpu.st := congrArg Cpu.st (h.sameCpu hmn)
  have hflags := (h.setFlags houtcome m n hmn).2
  refine ⟨rfl, ?_⟩
  change R
    (Exec.writeRegister number (outcome m.cpu.st).value
      (Exec.modifySt (fun st => (outcome st).st) m).2).2
    (Exec.writeRegister number (outcome n.cpu.st).value
      (Exec.modifySt (fun st => (outcome st).st) n).2).2
  rw [← hst]
  exact (h.writeRegister number (outcome m.cpu.st).value _ _ hflags).2

theorem binary (destination : UInt8) {combine : UInt8 → UInt8 → Outcome}
    (hcombine : ∀ st d, (combine st d).SetsFlags st) :
    Corresponds R (Exec.dual.binary destination combine)
      (Exec.dual.binary destination combine) := by
  refine (h.readRegister destination).bind fun d => ?_
  exact h.applyOutcome destination (combine · d) fun st => hcombine st d

theorem dual (operation : DualOperation) (form : DualForm) :
    Corresponds R (Exec.dual operation form) (Exec.dual operation form) := by
  refine (h.dualOperands form).bind ?_
  rintro ⟨s, destination⟩
  cases operation with
  | mov => exact (h.writeRegister destination s).seq ((h.setLogical s).seq (.pure 0))
  | and | or | xor => exact h.binary destination fun st d => .logical st _
  | btjo | btjz =>
      refine (h.readRegister destination).bind fun d => ?_
      exact h.branchOnBits _
  | add | adc => exact h.binary destination fun st d => .add st d s _
  | sub | sbb => exact h.binary destination fun st d => .subtract st d s _
  | mpy =>
      refine (h.readRegister destination).bind fun d => ?_
      refine (h.writeAccumulator .a _).seq ?_
      refine (h.writeAccumulator .b _).seq ?_
      exact (h.setLogical _).seq (.pure 0)
  | cmp =>
      refine (h.readRegister destination).bind fun d => ?_
      exact (h.setFlags fun st => Outcome.SetsFlags.subtract st d s false).seq (.pure 0)
  | dac => exact h.binary destination fun st d => .addDecimal st d s _
  | dsb => exact h.binary destination fun st d => .subtractDecimal st d s _

theorem peripheral {operation : PeripheralOperation} {source : PeripheralSource}
    (hstore : (Instruction.peripheral operation source).Stores → StoreSimulation R) :
    Corresponds R (Exec.peripheral operation source) (Exec.peripheral operation source) := by
  refine (h.peripheralSource source).bind fun s => ?_
  refine h.fetch.bind fun number => ?_
  cases operation with
  | mov =>
      refine ((hstore trivial).writePeripheral number s).seq ?_
      exact (h.setLogical s).seq (.pure 0)
  | and | or | xor =>
      refine (h.readPeripheral number).bind fun v => ?_
      refine ((hstore trivial).writePeripheral number _).seq ?_
      exact (h.setLogical _).seq (.pure 0)
  | btjo | btjz =>
      refine (h.readPeripheral number).bind fun v => ?_
      exact h.branchOnBits _

theorem extended {operation : ExtendedOperation} {mode : ExtendedMode}
    (hstore : (Instruction.extended operation mode).Stores → StoreSimulation R) :
    Corresponds R (Exec.extended operation mode) (Exec.extended operation mode) := by
  refine (h.extendedOperand mode).bind fun operand => ?_
  cases operation with
  | movd =>
      refine h.fetch.bind fun number => ?_
      exact (h.writePair number operand).seq (h.setLogical _)
  | lda =>
      refine (h.read operand).bind fun value => ?_
      exact (h.writeAccumulator .a value).seq (h.setLogical value)
  | sta =>
      refine (h.readAccumulator .a).bind fun value => ?_
      exact ((hstore trivial).write operand value).seq (h.setLogical value)
  | br => exact h.setPc operand
  | cmpa =>
      refine (h.read operand).bind fun value => ?_
      refine (h.readAccumulator .a).bind fun a => ?_
      exact h.setFlags fun st => Outcome.SetsFlags.subtract st a value false
  | call => exact h.pushPc.seq (h.setPc operand)

theorem unary (number : UInt8) {change : UInt8 → UInt8 → Outcome}
    (hchange : ∀ st v, (change st v).SetsFlags st) :
    Corresponds R (Exec.single.unary number change) (Exec.single.unary number change) := by
  refine (h.readRegister number).bind fun v => ?_
  exact h.applyOutcome number (change · v) fun st => hchange st v

theorem single (operation : SingleOperation) (target : Target) :
    Corresponds R (Exec.single operation target) (Exec.single operation target) := by
  refine (h.targetNumber target).bind fun number => ?_
  cases operation with
  | dec => exact h.unary number fun st v => .subtract st v 1 false
  | inc => exact h.unary number fun st v => .add st v 1 false
  | inv => exact h.unary number fun st v => .logical st _
  | clr => exact h.applyOutcome number (.logical · 0) fun st => .logical st 0
  | xchb =>
      refine (h.readRegister number).bind fun v => ?_
      refine (h.readAccumulator .b).bind fun b => ?_
      refine (h.writeRegister number b).seq ?_
      refine (h.writeAccumulator .b v).seq ?_
      exact (h.setLogical v).seq (.pure 0)
  | swap | rr | rl => exact h.unary number fun st v => .withCarry st _ _
  | rrc | rlc => exact h.unary number fun st v => .withCarry st _ _
  | push =>
      refine (h.readRegister number).bind fun v => ?_
      exact (h.push v).seq ((h.setLogical v).seq (.pure 0))
  | pop =>
      refine h.pop.bind fun v => ?_
      exact h.applyOutcome number (.logical · v) fun st => .logical st v
  | djnz =>
      refine (h.readRegister number).bind fun v => ?_
      exact (h.writeRegister number (v - 1)).seq (h.branchIf _)
  | decd =>
      refine (h.readPair number).bind fun v => ?_
      refine (h.writePair number (v - 1)).seq ?_
      exact (h.setFlags fun st => (Status.Follows.logical st _).withCarry _).seq (.pure 0)

theorem perform {instruction : Instruction}
    (hidle : instruction = .idle → Corresponds R (Exec.setIdle true) (Exec.setIdle true))
    (hload : instruction.LoadsStatus → ∀ st,
      Corresponds R (Exec.modifySt fun _ => st &&& Status.mask)
        (Exec.modifySt fun _ => st &&& Status.mask))
    (hstore : instruction.Stores → StoreSimulation R) :
    Corresponds R (Exec.perform instruction) (Exec.perform instruction) := by
  cases instruction with
  | eint => exact (hload (.inl rfl) Status.mask).seq (.pure 0)
  | dint => exact h.clearSt.seq (.pure 0)
  | setc =>
      have hsetc (st : UInt8) :
          Status.Follows st ((st &&& Status.interruptEnable) ||| Status.carry ||| Status.zero) :=
        ((Status.Follows.enable st).or (by decide)).or (by decide)
      exact (h.setFlags hsetc).seq (.pure 0)
  | popSt =>
      refine h.pop.bind fun st => ?_
      exact (hload (.inr (.inl rfl)) st).seq (.pure 0)
  | reti =>
      refine h.popPc.seq ?_
      refine h.pop.bind fun st => ?_
      exact (hload (.inr (.inr rfl)) st).seq (.pure 0)
  | dual operation form => exact h.dual operation form
  | movp destination =>
      refine h.fetch.bind fun number => ?_
      refine (h.readPeripheral number).bind fun value => ?_
      exact (h.writeAccumulator destination value).seq ((h.setLogical value).seq (.pure 0))
  | peripheral operation source => exact h.peripheral hstore
  | extended operation mode => exact (h.extended hstore).seq (.pure 0)
  | clrc =>
      refine (h.readAccumulator .a).bind fun a => ?_
      exact (h.setLogical a).seq (.pure 0)
  | movAB =>
      refine (h.readAccumulator .a).bind fun a => ?_
      exact (h.writeAccumulator .b a).seq ((h.setLogical a).seq (.pure 0))
  | tstb =>
      refine (h.readAccumulator .b).bind fun b => ?_
      exact (h.setLogical b).seq (.pure 0)
  | movToRegister source =>
      refine h.fetch.bind fun number => ?_
      refine (h.readAccumulator source).bind fun value => ?_
      exact (h.writeRegister number value).seq ((h.setLogical value).seq (.pure 0))
  | single operation target => exact h.single operation target
  | nop | idle | pushSt | stsp | ldsp | rets | jump | trap =>
      exact h.toOperandSimulation.perform rfl hidle

end RegisterSimulation

theorem Simulation.execute (h : Simulation R)
    (hidle : Corresponds R (Exec.setIdle true) (Exec.setIdle true)) :
    Corresponds R Exec.execute Exec.execute := by
  refine h.fetch.bind fun opcode => ?_
  cases Instruction.ofOpcode? opcode with
  | none => exact h.illegal
  | some entry =>
      have hperform : Corresponds R (Exec.perform entry.operation) (Exec.perform entry.operation) :=
        h.perform (fun _ => hidle) (fun _ st => h.modifySt fun _ => .mask st) fun _ =>
          h.toStoreSimulation
      exact hperform.bind fun _ => .pure _

end TmsCores.Tms7000
