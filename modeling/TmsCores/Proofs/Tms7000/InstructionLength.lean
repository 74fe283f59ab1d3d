import TmsCores.Proofs.Tms7000.Contents
import TmsCores.Proofs.Tms7000.Signals
import TmsCores.Proofs.Tms7000.StackFrame

namespace TmsCores.Tms7000

/-- The register numbers and immediate values that stand after the opcode. -/
def DualForm.bytes : DualForm → Nat
  | .bToA => 0
  | .registerToA | .immediateToA | .registerToB | .immediateToB => 1
  | .registerToRegister | .immediateToRegister => 2

def PeripheralSource.bytes : PeripheralSource → Nat
  | .a | .b => 0
  | .immediate => 1

def Target.bytes : Target → Nat
  | .a | .b => 0
  | .register => 1

namespace Instruction

/-- The bytes of the program that tell an instruction its operands: registers, immediate values and
addresses. -/
def operandBytes : Instruction → Nat
  | .dual _ form => form.bytes
  | .movp _ | .movToRegister _ => 1
  | .peripheral _ source => source.bytes + 1
  | .extended .movd mode => mode.size.toNat + 1
  | .extended _ mode => mode.size.toNat
  | .single _ target => target.bytes
  | .nop | .idle | .eint | .dint | .setc | .popSt | .pushSt | .stsp | .ldsp | .rets | .reti => 0
  | .clrc | .movAB | .tstb | .jump _ | .trap _ => 0

/-- The instructions that end with an offset, by which they branch or not. -/
def hasOffset : Instruction → Bool
  | .jump _ | .single .djnz _ => true
  | .dual .btjo _ | .dual .btjz _ | .peripheral .btjo _ | .peripheral .btjz _ => true
  | _ => false

/-- The bytes that an instruction takes up, with its opcode. -/
def length (instruction : Instruction) : Nat :=
  1 + instruction.operandBytes + if instruction.hasOffset then 1 else 0

/-- The bytes that an opcode takes up together with those after it.  None belongs to an illegal
one. -/
def lengthAt (opcode : UInt8) : Nat :=
  match ofOpcode? opcode with
  | none => 1
  | some entry => entry.operation.length

/-- The instructions that go on at an address of their own. -/
def leaves : Instruction → Bool
  | .extended .br _ | .extended .call _ | .rets | .reti | .trap _ => true
  | _ => false

end Instruction

variable {α β : Type} [Bus β]

namespace Exec

/-- A part of an instruction takes up some bytes of the program. -/
abbrev TakesUp (bytes : Nat) (x : Exec β α) : Prop :=
  Advances (·.cpu.pc) bytes x

namespace TakesUp

section

omit [Bus β]

theorem cpu : TakesUp (β := β) 0 cpu :=
  .of_eq fun _ => rfl

theorem modifySt (change : UInt8 → UInt8) : TakesUp (β := β) 0 (modifySt change) :=
  .of_eq fun _ => rfl

theorem setSp (sp : UInt8) : TakesUp (β := β) 0 (setSp sp) :=
  .of_eq fun _ => rfl

theorem readAccumulator (accumulator : Accumulator) :
    TakesUp (β := β) 0 (readAccumulator accumulator) :=
  .of_eq fun _ => rfl

theorem writeAccumulator (accumulator : Accumulator) (value : UInt8) :
    TakesUp (β := β) 0 (writeAccumulator accumulator value) :=
  .of_eq fun _ => rfl

end

theorem readAt (location : Location) : TakesUp (β := β) 0 (readAt location) :=
  .of_eq fun _ => congrArg (·.pc) (cpu_readAt location)

theorem writeAt (location : Location) (value : UInt8) :
    TakesUp (β := β) 0 (writeAt location value) := by
  cases location with
  | _ => exact .of_eq fun _ => rfl

theorem setIdle (idle : Bool) : TakesUp (β := β) 0 (setIdle idle) :=
  .of_eq fun _ => rfl

theorem read (address : UInt16) : TakesUp (β := β) 0 (read address) :=
  cpu.after fun _ => readAt _

theorem write (address : UInt16) (value : UInt8) : TakesUp (β := β) 0 (write address value) :=
  cpu.after fun _ => writeAt _ _

theorem readRegister (number : UInt8) : TakesUp (β := β) 0 (readRegister number) :=
  read _

theorem writeRegister (number value : UInt8) : TakesUp (β := β) 0 (writeRegister number value) :=
  write _ _

theorem readPair (number : UInt8) : TakesUp (β := β) 0 (readPair number) :=
  (readRegister _).after fun _ => (readRegister _).after fun _ => .pure _

theorem writePair (number : UInt8) (value : UInt16) :
    TakesUp (β := β) 0 (writePair number value) :=
  (writeRegister _ _).after fun _ => writeRegister _ _

theorem push (value : UInt8) : TakesUp (β := β) 0 (push value) :=
  cpu.after fun _ => (setSp _).after fun _ => write _ _

theorem pop : TakesUp (β := β) 0 pop :=
  cpu.after fun _ => (read _).after fun _ => (setSp _).after fun _ => .pure _

theorem fetch : TakesUp (β := β) 1 fetch :=
  fun _ => rfl

theorem fetchWord : TakesUp (β := β) 2 fetchWord :=
  fetch.bind fun _ => fetch.before fun _ => .pure _

theorem storeOutcome (number : UInt8) (outcome : Outcome) :
    TakesUp (β := β) 0 (storeOutcome number outcome) :=
  (modifySt _).after fun _ => writeRegister _ _

theorem dualOperands (form : DualForm) : TakesUp (β := β) form.bytes (dualOperands form) := by
  cases form with
  | bToA => exact (readAccumulator .b).after fun _ => .pure _
  | registerToA | registerToB =>
      exact fetch.before fun _ => (readRegister _).after fun _ => .pure _
  | immediateToA | immediateToB => exact fetch.before fun _ => .pure _
  | registerToRegister =>
      change TakesUp (1 + 1) _
      refine fetch.bind fun source => ?_
      exact fetch.before fun _ => (readRegister _).after fun _ => .pure _
  | immediateToRegister =>
      change TakesUp (1 + 1) _
      exact fetch.bind fun _ => fetch.before fun _ => .pure _

theorem peripheralSource (source : PeripheralSource) :
    TakesUp (β := β) source.bytes (peripheralSource source) := by
  cases source with
  | a | b => exact readAccumulator _
  | immediate => exact fetch

theorem extendedOperand (mode : ExtendedMode) :
    TakesUp (β := β) mode.size.toNat (extendedOperand mode) := by
  cases mode with
  | direct => exact fetchWord
  | indirect => exact fetch.before fun number => readPair number
  | indexed => exact fetchWord.before fun _ => (readAccumulator .b).after fun _ => .pure _

theorem targetNumber (target : Target) :
    TakesUp (β := β) target.bytes (targetNumber target) := by
  cases target with
  | a | b => exact .pure _
  | register => exact fetch

theorem binary (destination : UInt8) (combine : UInt8 → UInt8 → Outcome) :
    TakesUp (β := β) 0 (dual.binary destination combine) :=
  (readRegister _).after fun _ => cpu.after fun _ => (storeOutcome _ _).after fun _ => .pure _

theorem unary (number : UInt8) (change : UInt8 → UInt8 → Outcome) :
    TakesUp (β := β) 0 (single.unary number change) :=
  (readRegister _).after fun _ => cpu.after fun _ => (storeOutcome _ _).after fun _ => .pure _

theorem store (number value : UInt8) : TakesUp (β := β) 0 (peripheral.store number value) :=
  (writeAt _ _).after fun _ => (modifySt _).after fun _ => .pure _

theorem dual {operation : DualOperation} {form : DualForm}
    (h : (Instruction.dual operation form).hasOffset = false) :
    TakesUp (β := β) form.bytes (dual operation form) := by
  refine (dualOperands form).before ?_
  rintro ⟨s, destination⟩
  cases operation with
  | btjo | btjz => exact absurd h nofun
  | mov => exact (writeRegister _ _).after fun _ => (modifySt _).after fun _ => .pure _
  | mpy =>
      refine (readRegister _).after fun d => (writeAccumulator _ _).after fun _ => ?_
      exact (writeAccumulator _ _).after fun _ => (modifySt _).after fun _ => .pure _
  | cmp => exact (readRegister _).after fun d => (modifySt _).after fun _ => .pure _
  | _ => exact binary _ _

theorem peripheral {operation : PeripheralOperation} {source : PeripheralSource}
    (h : (Instruction.peripheral operation source).hasOffset = false) :
    TakesUp (β := β) (source.bytes + 1) (peripheral operation source) := by
  refine (peripheralSource source).bind fun s => fetch.before fun number => ?_
  cases operation with
  | btjo | btjz => exact absurd h nofun
  | mov => exact store _ _
  | and | or | xor => exact (readAt _).after fun v => store _ _

theorem extended {operation : ExtendedOperation} {mode : ExtendedMode}
    (h : (Instruction.extended operation mode).leaves = false) :
    TakesUp (β := β) (Instruction.extended operation mode).operandBytes
      (extended operation mode) := by
  cases operation with
  | br | call => exact absurd h nofun
  | movd =>
      refine (extendedOperand mode).bind fun operand => fetch.before fun number => ?_
      exact (writePair _ _).after fun _ => modifySt _
  | lda =>
      refine (extendedOperand mode).before fun operand => (read _).after fun value => ?_
      exact (writeAccumulator _ _).after fun _ => modifySt _
  | sta =>
      refine (extendedOperand mode).before fun operand => ?_
      refine (readAccumulator _).after fun value => ?_
      exact (write _ _).after fun _ => modifySt _
  | cmpa =>
      refine (extendedOperand mode).before fun operand => (read _).after fun value => ?_
      exact (readAccumulator _).after fun a => modifySt _

theorem single {operation : SingleOperation} {target : Target}
    (h : (Instruction.single operation target).hasOffset = false) :
    TakesUp (β := β) target.bytes (single operation target) := by
  refine (targetNumber target).before fun number => ?_
  cases operation with
  | djnz => exact absurd h nofun
  | clr => exact cpu.after fun _ => (storeOutcome _ _).after fun _ => .pure _
  | xchb =>
      refine (readRegister _).after fun v => (readAccumulator _).after fun b => ?_
      refine (writeRegister _ _).after fun _ => (writeAccumulator _ _).after fun _ => ?_
      exact (modifySt _).after fun _ => .pure _
  | push =>
      exact (readRegister _).after fun v =>
        (push _).after fun _ => (modifySt _).after fun _ => .pure _
  | pop =>
      exact pop.after fun v => cpu.after fun _ => (storeOutcome _ _).after fun _ => .pure _
  | decd =>
      exact (readPair _).after fun v =>
        (writePair _ _).after fun _ => (modifySt _).after fun _ => .pure _
  | _ => exact unary _ _

/-- An instruction that does not branch takes up the bytes that tell it its operands, whatever it
finds these to be. -/
theorem perform {instruction : Instruction} (hleaves : instruction.leaves = false)
    (hoffset : instruction.hasOffset = false) :
    TakesUp (β := β) instruction.operandBytes (perform instruction) := by
  cases instruction with
  | jump => exact absurd hoffset nofun
  | rets | reti | trap => exact absurd hleaves nofun
  | nop => exact .pure _
  | idle => exact (setIdle true).after fun _ => .pure _
  | eint | dint | setc => exact (modifySt _).after fun _ => .pure _
  | popSt => exact pop.after fun st => (modifySt _).after fun _ => .pure _
  | pushSt => exact cpu.after fun _ => (push _).after fun _ => .pure _
  | stsp => exact cpu.after fun _ => (writeAccumulator _ _).after fun _ => .pure _
  | ldsp => exact (readAccumulator _).after fun sp => (setSp _).after fun _ => .pure _
  | dual operation form => exact dual hoffset
  | movp destination =>
      refine fetch.before fun number => (readAt _).after fun value => ?_
      exact (writeAccumulator _ _).after fun _ => (modifySt _).after fun _ => .pure _
  | peripheral operation source => exact peripheral hoffset
  | extended operation mode => exact (extended hleaves).before fun _ => .pure _
  | clrc | tstb => exact (readAccumulator _).after fun _ => (modifySt _).after fun _ => .pure _
  | movAB =>
      refine (readAccumulator _).after fun a => (writeAccumulator _ _).after fun _ => ?_
      exact (modifySt _).after fun _ => .pure _
  | movToRegister source =>
      refine fetch.before fun number => (readAccumulator _).after fun value => ?_
      exact (writeRegister _ _).after fun _ => (modifySt _).after fun _ => .pure _
  | single operation target => exact single hoffset

end TakesUp

def testBits (bits : UInt8) : Exec β Bool := do
  modifySt (Status.logical · bits)
  return bits != 0

/-- What an instruction that ends with an offset does before it fetches that, and whether it
branches. -/
def branchTest? : Instruction → Option (Exec β Bool)
  | .jump condition => some do return condition.holds (← cpu).st
  | .dual .btjo form => some do
      let (s, destination) ← dualOperands form
      testBits (s &&& (← readRegister destination))
  | .dual .btjz form => some do
      let (s, destination) ← dualOperands form
      testBits (s &&& ~~~(← readRegister destination))
  | .peripheral .btjo source => some do
      let s ← peripheralSource source
      let number ← fetch
      testBits (s &&& (← readPeripheral number))
  | .peripheral .btjz source => some do
      let s ← peripheralSource source
      let number ← fetch
      testBits (s &&& ~~~(← readPeripheral number))
  | .single .djnz target => some do
      let number ← targetNumber target
      let v ← readRegister number
      writeRegister number (v - 1)
      return v - 1 != 0
  | _ => none

theorem isSome_branchTest? (instruction : Instruction) :
    (branchTest? (β := β) instruction).isSome = instruction.hasOffset := by
  cases instruction with
  | dual operation | peripheral operation | single operation => cases operation <;> rfl
  | _ => rfl

theorem branchTest?_spec {instruction : Instruction} {test : Exec β Bool}
    (h : branchTest? instruction = some test) : TakesUp instruction.operandBytes test ∧
      ∀ machine, (perform instruction machine).2 = ((test >>= branchIf) machine).2 := by
  have hbits (bits : UInt8) : TakesUp (β := β) 0 (testBits bits) :=
    (TakesUp.modifySt _).after fun _ => .pure _
  cases instruction with
  | jump condition =>
      obtain rfl := Option.some.inj h
      exact ⟨TakesUp.cpu.after fun _ => .pure _, fun _ => rfl⟩
  | dual operation form =>
      cases operation with
      | btjo | btjz =>
          obtain rfl := Option.some.inj h
          simp only [testBits, bind_assoc, pure_bind]
          refine ⟨(TakesUp.dualOperands form).before fun operands => ?_, fun _ => rfl⟩
          exact (TakesUp.readRegister _).after fun _ => hbits _
      | _ => cases h
  | peripheral operation source =>
      cases operation with
      | btjo | btjz =>
          obtain rfl := Option.some.inj h
          simp only [testBits, bind_assoc, pure_bind]
          refine ⟨(TakesUp.peripheralSource source).bind fun s => ?_, fun _ => rfl⟩
          exact TakesUp.fetch.before fun _ => (TakesUp.readAt _).after fun _ => hbits _
      | _ => cases h
  | single operation target =>
      cases operation with
      | djnz =>
          obtain rfl := Option.some.inj h
          simp only [bind_assoc, pure_bind]
          refine ⟨(TakesUp.targetNumber target).before fun number => ?_, fun machine => ?_⟩
          case refine_2 => rw [perform, single]
          exact (TakesUp.readRegister _).after fun _ =>
            (TakesUp.writeRegister _ _).after fun _ => .pure _
      | _ => cases h
  | _ => cases h

theorem cpu_fetch (machine : Machine β) :
    (fetch machine).2.cpu = machine.cpu.setPc (machine.cpu.pc + 1) :=
  congrArg (Cpu.setPc · (machine.cpu.pc + 1))
    (cpu_readAt (.ofAddress machine.cpu.config machine.cpu.pc))

theorem illegal_snd_of_ne_trap {machine : Machine β}
    (h : machine.cpu.config.illegal ≠ .trap) : (illegal machine).2 = machine := by
  rw [illegal, cpu_bind]
  cases hillegal : machine.cpu.config.illegal with
  | ignore => rfl
  | trap => exact absurd hillegal h

theorem pc_branchIf (taken : Bool) (machine : Machine β) :
    (branchIf taken machine).2.cpu.pc = machine.cpu.pc + 1 +
      if taken then Word.signExtend (fetch machine).1 else 0 := by
  cases taken with
  | true => rfl
  | false => exact (UInt16.add_zero _).symm

end Exec

namespace Machine

variable {machine : Machine β}

/-- How an iteration that executes an opcode moves the program counter on, from where the interrupt
check has left it to where the next iteration finds it. -/
structure KeepsStep (machine next : Machine β) : Prop where
  /-- The check leaves it alone, unless it takes an interrupt. -/
  checked : machine.acknowledged = [] → machine.checked.cpu.pc = machine.cpu.pc
  /-- An instruction takes up its own bytes, unless it has an offset or goes on at an address of its
  own. -/
  plain : ∀ instruction ∈ machine.executes, instruction.leaves = false →
    instruction.hasOffset = false →
    next.cpu.pc = machine.checked.cpu.pc + .ofNat (Instruction.lengthAt machine.fetched.1)
  /-- An illegal opcode is one byte, if there is no trap for it. -/
  illegal : machine.executes = none → machine.checked.cpu.config.illegal ≠ .trap →
    next.cpu.pc = machine.checked.cpu.pc + .ofNat (Instruction.lengthAt machine.fetched.1)
  /-- The last byte of an instruction with an offset is that offset.  It counts from the end of the
  instruction, if the instruction branches. -/
  offset : ∀ instruction ∈ machine.executes, instruction.hasOffset = true →
    ∃ test ∈ Exec.branchTest? instruction,
      let tested := (test machine.fetched.2).2
      tested.cpu.pc =
        machine.checked.cpu.pc + .ofNat (Instruction.lengthAt machine.fetched.1 - 1) ∧
      next.cpu.pc =
        machine.checked.cpu.pc + .ofNat (Instruction.lengthAt machine.fetched.1) +
          if (test machine.fetched.2).1 then Word.signExtend (Exec.fetch tested).1 else 0

theorem pc_iterate (machine : Machine β) (limit : Nat) :
    (Exec.iterate limit machine).2.cpu.pc = machine.worked.cpu.pc := by
  have hclock := (Cpu.clockStable_of_registers fun _ pc _ _ _ =>
    pc = machine.worked.cpu.pc).simulation (β := β)
  rw [iterate_snd]
  exact corresponds_self_iff.mp (hclock.account _) machine.worked rfl

theorem lengthAt_fetched {instruction : Instruction} (h : instruction ∈ machine.executes) :
    Instruction.lengthAt machine.fetched.1 = instruction.length := by
  rw [Option.mem_def, executes, Option.ite_none_left_eq_some, Option.map_eq_some_iff] at h
  obtain ⟨_, entry, hentry, rfl⟩ := h
  rw [Instruction.lengthAt, hentry]

theorem pc_of_takesUp {bytes : Nat} {x : Exec β α} (h : Exec.TakesUp bytes x)
    (machine : Machine β) :
    (x machine.fetched.2).2.cpu.pc = machine.checked.cpu.pc + .ofNat (1 + bytes) :=
  Exec.TakesUp.fetch.bind (fun _ => h) machine.checked

theorem worked_of_illegal (hawake : machine.checked.cpu.idle = false)
    (h : machine.executes = none) (htrap : machine.checked.cpu.config.illegal ≠ .trap) :
    Instruction.ofOpcode? machine.fetched.1 = none ∧ machine.worked = machine.fetched.2 := by
  have hopcode : Instruction.ofOpcode? machine.fetched.1 = none := by
    rw [executes, hawake, if_neg Bool.false_ne_true, Option.map_eq_none_iff] at h
    exact h
  refine ⟨hopcode, ?_⟩
  rw [fetched] at hopcode
  rw [worked_of_awake hawake, Exec.execute, bind_snd, hopcode]
  refine Exec.illegal_snd_of_ne_trap ?_
  rw [Exec.cpu_fetch]
  exact htrap

end Machine

theorem keepsStep_iterate {machine : Machine β} (hawake : machine.checked.cpu.idle = false)
    (limit : Nat) : machine.KeepsStep (Exec.iterate limit machine).2 := by
  constructor
  case checked =>
    intro hacknowledged
    rw [Machine.acknowledged, List.map_eq_nil_iff, Option.toList_eq_nil_iff] at hacknowledged
    rw [Machine.checked_of_none hacknowledged]
    rfl
  case plain =>
    intro instruction hexecutes hleaves hoffset
    rw [Machine.pc_iterate, Machine.worked_of_executes hexecutes,
      Machine.pc_of_takesUp (.perform hleaves hoffset), Machine.lengthAt_fetched hexecutes,
      Instruction.length, hoffset]
    rfl
  case illegal =>
    intro hexecutes htrap
    obtain ⟨hopcode, hworked⟩ := Machine.worked_of_illegal hawake hexecutes htrap
    rw [Machine.pc_iterate, hworked, Instruction.lengthAt, hopcode]
    exact Exec.TakesUp.fetch machine.checked
  case offset =>
    intro instruction hexecutes hoffset
    obtain ⟨test, htest⟩ :=
      Option.isSome_iff_exists.mp ((Exec.isSome_branchTest? (β := β) instruction).trans hoffset)
    obtain ⟨htakes, hperform⟩ := Exec.branchTest?_spec htest
    have htested := Machine.pc_of_takesUp htakes machine
    have hlength : instruction.length = 1 + instruction.operandBytes + 1 := by
      rw [Instruction.length, hoffset, if_pos rfl]
    rw [Machine.pc_iterate, Machine.worked_of_executes hexecutes, hperform, bind_snd,
      Exec.pc_branchIf, Machine.lengthAt_fetched hexecutes, hlength, htested]
    refine ⟨test, htest, htested, ?_⟩
    rw [UInt16.ofNat_add (1 + instruction.operandBytes), UInt16.add_assoc machine.checked.cpu.pc]
    rfl

end TmsCores.Tms7000
