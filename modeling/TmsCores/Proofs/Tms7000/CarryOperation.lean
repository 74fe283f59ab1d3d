import TmsCores.Proofs.Arithmetic.Carry
import TmsCores.Proofs.Tms7000.StatusFrame

namespace TmsCores.Tms7000

namespace Status

theorem has_bitIf_carry (set : Bool) : has (bitIf set carry) carry = set := by
  rw [has, and_bitIf, bitIf_ne_zero (by decide)]

theorem has_carry_withCarry (st : UInt8) (set : Bool) : has (withCarry st set) carry = set := by
  cases set with
  | false =>
      change (st &&& ~~~carry &&& carry != 0) = false
      rw [UInt8.and_assoc, UInt8.not_and_self, UInt8.and_zero]
      rfl
  | true =>
      have habsorbed : (st ||| carry) &&& carry = carry := by
        apply UInt8.toBitVec_inj.mp
        ext i hi
        simpa using Or.inr
      change ((st ||| carry) &&& carry != 0) = true
      rw [habsorbed]
      rfl

end Status

/-- The operations that take a carry from one byte to the next. -/
inductive CarryOperation
  | adc
  | sbb
  | dac
  | dsb
  | rlc
  | rrc
  deriving DecidableEq

namespace CarryOperation

/-- What an operation makes of a source byte, a destination byte and the status register.  The
rotations have no source. -/
def outcome (operation : CarryOperation) (s d st : UInt8) : Outcome :=
  match operation with
  | adc => .add st d s (Status.has st Status.carry)
  | sbb => .subtract st d s (!Status.has st Status.carry)
  | dac => .addDecimal st d s (Status.has st Status.carry)
  | dsb => .subtractDecimal st d s (!Status.has st Status.carry)
  | rlc => .rotateLeftCarry st d (Status.has st Status.carry)
  | rrc => .rotateRightCarry st d (Status.has st Status.carry)

/-- An operation as a function of source, destination and carry: the byte and the carry that come
of it. -/
def apply (operation : CarryOperation) (s d : UInt8) (carry : Bool) : UInt8 × Bool :=
  let outcome := operation.outcome s d (Status.bitIf carry Status.carry)
  (outcome.value, Status.has outcome.st Status.carry)

theorem outcome_congr (operation : CarryOperation) (s d : UInt8) {st st' : UInt8}
    (h : Status.has st Status.carry = Status.has st' Status.carry) :
    (operation.outcome s d st).value = (operation.outcome s d st').value ∧
      Status.has (operation.outcome s d st).st Status.carry =
        Status.has (operation.outcome s d st').st Status.carry := by
  cases operation with
  | adc | sbb =>
      simp only [outcome, h, Outcome.add, Outcome.subtract, Status.has_carry_arithmetic, and_self]
  | dac | rlc | rrc =>
      simp only [outcome, h, Outcome.addDecimal, Outcome.rotateLeftCarry,
        Outcome.rotateRightCarry, Outcome.withCarry, Status.has_carry_withCarry, and_self]
  | dsb =>
      simp only [outcome, h, Outcome.subtractDecimal]
      split
      · simp only [Outcome.withCarry, Status.has_carry_withCarry, and_self]
      · simp only [Outcome.withCarry, Status.has_carry_withCarry, and_self]

theorem outcome_eq_apply (operation : CarryOperation) (s d st : UInt8) :
    (operation.outcome s d st).value = (operation.apply s d (Status.has st Status.carry)).1 ∧
      Status.has (operation.outcome s d st).st Status.carry =
        (operation.apply s d (Status.has st Status.carry)).2 :=
  operation.outcome_congr s d (Status.has_bitIf_carry _).symm

theorem setsFlags (operation : CarryOperation) (s d st : UInt8) :
    (operation.outcome s d st).SetsFlags st := by
  cases operation with
  | adc => exact .add st d s _
  | sbb => exact .subtract st d s _
  | dac => exact .addDecimal st d s _
  | dsb => exact .subtractDecimal st d s _
  | rlc | rrc => exact .withCarry st _ _

theorem shows (operation : CarryOperation) (s d st : UInt8) :
    (operation.outcome s d st).Shows := by
  cases operation with
  | adc => exact .add st d s _
  | sbb => exact .subtract st d s _
  | dac => exact .addDecimal st d s _
  | dsb => exact .subtractDecimal st d s _
  | rlc | rrc => exact .withCarry st _ _

end CarryOperation

/-- What an operation that carries works on, and the register that its result goes to. -/
structure CarryOperands where
  source : UInt8
  destination : UInt8
  number : UInt8
  deriving DecidableEq

variable {β : Type} [Bus β]

namespace Exec

def dualCarryOperands (form : DualForm) : Exec β CarryOperands := do
  let (s, number) ← dualOperands form
  let d ← readRegister number
  return { source := s, destination := d, number := number }

def singleCarryOperands (target : Target) : Exec β CarryOperands := do
  let number ← targetNumber target
  let d ← readRegister number
  return { source := 0, destination := d, number := number }

/-- The operation of an instruction that takes a carry in and out, and how the instruction comes to
its operands. -/
def carryOperation? : Instruction → Option (CarryOperation × Exec β CarryOperands)
  | .dual .adc form => some (.adc, dualCarryOperands form)
  | .dual .sbb form => some (.sbb, dualCarryOperands form)
  | .dual .dac form => some (.dac, dualCarryOperands form)
  | .dual .dsb form => some (.dsb, dualCarryOperands form)
  | .single .rlc target => some (.rlc, singleCarryOperands target)
  | .single .rrc target => some (.rrc, singleCarryOperands target)
  | _ => none

theorem result_of_carryOperation {instruction : Instruction} {operation : CarryOperation}
    {find : Exec β CarryOperands} (h : carryOperation? instruction = some (operation, find)) :
    result instruction = some (do
      let operands ← find
      settle (.outcome operands.number
        (operation.outcome operands.source operands.destination))) := by
  unfold carryOperation? at h
  split at h
  case h_7 => exact absurd h nofun
  all_goals
    obtain ⟨rfl, rfl⟩ := Prod.mk.inj (Option.some.inj h)
    rfl

end Exec

/-- An instruction of a machine has read operands and done nothing else but to store a byte in a
register and to leave a carry, with sign and zero describing the byte. -/
structure Machine.HasStored (machine : Machine β) (number : UInt8) (result : UInt8 × Bool)
    (found : Machine β) (st : UInt8) : Prop where
  inspected : machine.checked.Inspected found
  worked : machine.worked = { (Exec.writeRegister number result.1 found).2 with cpu.st := st }
  carry : Status.has st Status.carry = result.2
  describes : Status.Describes st result.1
  enable : st &&& Status.interruptEnable = machine.checked.cpu.st &&& Status.interruptEnable

theorem Machine.hasStored_apply {machine : Machine β} {instruction : Instruction}
    {operation : CarryOperation} {find : Exec β CarryOperands}
    (hexecutes : machine.executes = some instruction)
    (hfind : Exec.carryOperation? instruction = some (operation, find)) (limit : Nat) :
    let operands := (find machine.fetched.2).1
    let carry := Status.has machine.checked.cpu.st Status.carry
    machine.HasStored operands.number
      (operation.apply operands.source operands.destination carry) (find machine.fetched.2).2
      (Exec.iterate limit machine).2.cpu.st := by
  intro operands carry
  let found := (find machine.fetched.2).2
  let outcome := operation.outcome operands.source operands.destination
  obtain ⟨hinspected, hworked, _⟩ :=
    machine.worked_of_result hexecutes (Exec.result_of_carryOperation hfind)
  have hst : found.cpu.st = machine.checked.cpu.st := Inspected.st_eq hinspected
  have hfinish : machine.worked =
      { (Exec.writeRegister operands.number (outcome found.cpu.st).value found).2 with
        cpu.st := (outcome found.cpu.st).st } := hworked
  have hnext : (Exec.iterate limit machine).2.cpu.st = (outcome machine.checked.cpu.st).st := by
    rw [machine.st_iterate limit, hfinish, hst]
  obtain ⟨hvalue, hcarry⟩ := operation.outcome_eq_apply operands.source operands.destination
    machine.checked.cpu.st
  rw [hnext]
  exact
    { inspected := hinspected
      worked := by rw [hfinish, hst, ← hvalue]
      carry := hcarry
      describes := hvalue ▸ operation.shows operands.source operands.destination _
      enable := (operation.setsFlags operands.source operands.destination _).enable_eq }

/-- If an instruction of a machine carries, it applies its operation to the operands that it finds
and to the carry in the status register. -/
def Machine.CarriesByOperation (machine : Machine β) (st : UInt8) : Prop :=
  ∀ instruction ∈ machine.executes, ∀ step ∈ Exec.carryOperation? instruction,
    let operands := (step.2 machine.fetched.2).1
    let carry := Status.has machine.checked.cpu.st Status.carry
    machine.HasStored operands.number
      (step.1.apply operands.source operands.destination carry) (step.2 machine.fetched.2).2 st

theorem Machine.carriesByOperation (machine : Machine β) (limit : Nat) :
    machine.CarriesByOperation (Exec.iterate limit machine).2.cpu.st :=
  fun _ hexecutes _ hstep => hasStored_apply hexecutes hstep limit

end TmsCores.Tms7000
