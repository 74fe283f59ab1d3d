import TmsCores.Proofs.Correspondence
import TmsCores.Tms9900.Execution

namespace TmsCores.Tms9900

/-- The end of a chain of X instructions. -/
structure ChainEnd where
  opcode : UInt16
  /-- What the opcode stands for.  It is X when the chain is too long. -/
  instruction : Option Instruction
  /-- The cycles that it took to get here. -/
  cycles : Nat

namespace Exec

variable {β : Type} [Bus β]

/-- Follows a chain of X instructions to its end, over no more than `depth` words. -/
def chase (depth : Nat) (opcode : UInt16) : Exec β ChainEnd := do
  let set := (← cpu).config.instructionSet
  match Instruction.ofOpcode? set opcode with
  | none => return ⟨opcode, none, 0⟩
  | some .x =>
      let (target, cycles) ← sourceWord opcode
      let base := (Instruction.baseCycles set .x).toNat
      match depth with
      | 0 => return ⟨opcode, some .x, base + cycles⟩
      | depth + 1 =>
          let last ← chase depth target
          return { last with cycles := base + cycles + last.cycles }
  | some instruction => return ⟨opcode, some instruction, 0⟩

/-- Executes what a chain of X instructions leads to.  Returns the cost of that alone. -/
def conclude (last : ChainEnd) : Exec β Nat := do
  let set := (← cpu).config.instructionSet
  match last.instruction with
  | none => illegal
  | some .x => return 0
  | some instruction =>
      let extra ← perform last.opcode instruction
      return (Instruction.baseCycles set instruction).toNat + extra

omit [Bus β] in
theorem cpu_bind {α : Type} (f : Cpu → Exec β α) (machine : Machine β) :
    (cpu >>= f) machine = f machine.cpu machine :=
  rfl

theorem conclude_none (opcode : UInt16) (cycles : Nat) :
    conclude (β := β) ⟨opcode, none, cycles⟩ = illegal :=
  rfl

theorem conclude_x (opcode : UInt16) (cycles : Nat) :
    conclude (β := β) ⟨opcode, some .x, cycles⟩ = pure 0 :=
  rfl

theorem conclude_snd {last : ChainEnd} {instruction : Instruction}
    (h : last.instruction = some instruction) (hx : instruction ≠ .x) (machine : Machine β) :
    (conclude last machine).2 = (perform last.opcode instruction machine).2 := by
  rw [conclude, cpu_bind, h]
  cases instruction with
  | x => exact absurd rfl hx
  | _ => rfl

theorem conclude_fst {last : ChainEnd} {instruction : Instruction}
    (h : last.instruction = some instruction) (hx : instruction ≠ .x) (machine : Machine β) :
    (conclude last machine).1 =
      (Instruction.baseCycles machine.cpu.config.instructionSet instruction).toNat +
        (perform last.opcode instruction machine).1 := by
  rw [conclude, cpu_bind, h]
  cases instruction with
  | x => exact absurd rfl hx
  | _ => rfl

/-- Along a chain of X instructions only the last opcode can do more than find its way. -/
theorem executeOpcode_eq (depth : Nat) (opcode : UInt16) :
    executeOpcode (β := β) depth opcode = do
      let last ← chase depth opcode
      let cost ← conclude last
      return last.cycles + cost := by
  funext machine
  rw [executeOpcode.eq_def, chase.eq_def, bind_assoc, cpu_bind, cpu_bind]
  dsimp only
  generalize Instruction.ofOpcode? machine.cpu.config.instructionSet opcode = found
  cases found with
  | none => simp only [pure_bind, conclude_none, Nat.zero_add, bind_pure]
  | some instruction =>
      cases instruction with
      | x =>
          cases depth with
          | zero =>
              -- The chain is cut off, and nothing is left to execute.
              simp only [bind_assoc, pure_bind, conclude_x, Nat.add_zero]
          | succ depth =>
              simp only [executeOpcode_eq depth, bind_assoc, pure_bind, conclude, Nat.add_assoc]
      | _ =>
          simp only [pure_bind, Nat.zero_add, bind_pure]
          rfl
termination_by depth

end Exec

end TmsCores.Tms9900
