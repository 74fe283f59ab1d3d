import TmsCores.Proofs.Tms9900.IdleNews
import TmsCores.Proofs.Tms9900.InstructionLength
import TmsCores.Proofs.Tms9900.WaitStates

namespace TmsCores.Tms9900

namespace ChainEnd

/-- The words of the program that the end of a chain has not taken up yet.  Those of an X are behind
it. -/
def wordsLeft (last : ChainEnd) : Nat :=
  match last.instruction with
  | none | some .x => 0
  | some instruction => instruction.extraWords last.opcode

/-- A chain that starts at a place comes to its end at another.  Until then it takes up the words of
the X instructions on its way. -/
structure Follows (set : InstructionSet) (links : List UInt16) (start : UInt16) (last : ChainEnd)
    (pc : UInt16) : Prop where
  instruction_eq : last.instruction = Instruction.ofOpcode? set last.opcode
  pc_eq : pc + .ofNat (2 * last.wordsLeft) = start + .ofNat (2 *
    ((links.map (Instruction.wordsAfter set)).sum + Instruction.wordsAfter set last.opcode))

theorem wordsLeft_eq {set : InstructionSet} {last : ChainEnd}
    (h : last.instruction = Instruction.ofOpcode? set last.opcode)
    (hx : last.instruction ≠ some .x) :
    last.wordsLeft = Instruction.wordsAfter set last.opcode := by
  rw [wordsLeft, Instruction.wordsAfter, ← h]
  split
  · next hnone => rw [hnone]
  · next hexecute => exact absurd hexecute hx
  · next hother => rw [hother]

theorem Follows.link {set : InstructionSet} {links : List UInt16} {last : ChainEnd}
    {opcode start pc : UInt16}
    (h : Follows set links (start + .ofNat (2 * Instruction.wordsAfter set opcode)) last pc)
    (cycles : Nat) : Follows set (opcode :: links) start { last with cycles := cycles } pc where
  instruction_eq := h.instruction_eq
  pc_eq := by
    refine h.pc_eq.trans ?_
    rw [UInt16.add_assoc, ← UInt16.ofNat_add, ← Nat.mul_add, ← Nat.add_assoc, List.map_cons,
      List.sum_cons]

end ChainEnd

theorem Instruction.wordsAfter_x {set : InstructionSet} {opcode : UInt16}
    (h : ofOpcode? set opcode = some .x) :
    wordsAfter set opcode = (Operand.source opcode).extraWords := by
  rw [wordsAfter, h]
  rfl

variable {β : Type} [Bus β]

namespace Exec

/-- The opcodes of the X instructions that lead from an opcode to the end of its chain. -/
def links : (depth : Nat) → (opcode : UInt16) → Exec β (List UInt16)
  | 0, _ => return []
  | depth + 1, opcode => do
      let set := (← cpu).config.instructionSet
      if Instruction.ofOpcode? set opcode = some .x then
        let (target, _) ← sourceWord opcode
        return opcode :: (← links depth target)
      else
        return []

variable {machine : Machine β}

theorem config_sourceWord (opcode : UInt16) (machine : Machine β) :
    (sourceWord opcode machine).2.cpu.config = machine.cpu.config := by
  have hconfig := (Cpu.config_flagStable machine.cpu.config).machine (β := β)
  exact corresponds_self_iff.mp (hconfig.transfers.operands.sourceWord opcode) machine rfl

theorem links_of_ne_x {opcode : UInt16}
    (h : Instruction.ofOpcode? machine.cpu.config.instructionSet opcode ≠ some .x) (depth : Nat) :
    (links depth opcode machine).1 = [] := by
  cases depth with
  | zero => rfl
  | succ depth =>
      rw [links, cpu_bind]
      dsimp only
      rw [if_neg h]
      rfl

theorem links_of_x {opcode : UInt16}
    (h : Instruction.ofOpcode? machine.cpu.config.instructionSet opcode = some .x) (depth : Nat) :
    (links (depth + 1) opcode machine).1 = opcode ::
      (links depth (sourceWord opcode machine).1.1 (sourceWord opcode machine).2).1 := by
  rw [links, cpu_bind]
  dsimp only
  rw [if_pos h]
  rfl

theorem chase_of_not_x {opcode : UInt16}
    (h : Instruction.ofOpcode? machine.cpu.config.instructionSet opcode ≠ some .x) (depth : Nat) :
    chase depth opcode machine =
      (⟨opcode, Instruction.ofOpcode? machine.cpu.config.instructionSet opcode, 0⟩, machine) := by
  cases hopcode : Instruction.ofOpcode? machine.cpu.config.instructionSet opcode with
  | none =>
      rw [chase.eq_def, cpu_bind]
      dsimp only
      rw [hopcode]
      rfl
  | some instruction =>
      exact chase_of_ne_x hopcode (fun hx => h (hx ▸ hopcode)) depth

theorem chase_zero_of_x {opcode : UInt16}
    (h : Instruction.ofOpcode? machine.cpu.config.instructionSet opcode = some .x) :
    ∃ cycles, chase 0 opcode machine =
      (⟨opcode, some .x, cycles⟩, (sourceWord opcode machine).2) := by
  rw [chase, cpu_bind]
  dsimp only
  rw [h]
  exact ⟨_, rfl⟩

theorem chase_succ_of_x {opcode : UInt16} {depth : Nat} {last : ChainEnd} {next : Machine β}
    (h : Instruction.ofOpcode? machine.cpu.config.instructionSet opcode = some .x)
    (hrest : chase depth (sourceWord opcode machine).1.1 (sourceWord opcode machine).2 =
      (last, next)) :
    ∃ cycles, chase (depth + 1) opcode machine = ({ last with cycles := cycles }, next) := by
  rw [chase.eq_def, cpu_bind]
  dsimp only
  rw [h]
  dsimp only
  rw [bind_of_eq (Prod.eta (sourceWord opcode machine)).symm, bind_of_eq hrest]
  exact ⟨_, rfl⟩

theorem pc_sourceWord {set : InstructionSet} {opcode : UInt16}
    (h : Instruction.ofOpcode? set opcode = some .x) (machine : Machine β) :
    (sourceWord opcode machine).2.cpu.pc =
      machine.cpu.pc + .ofNat (2 * Instruction.wordsAfter set opcode) := by
  rw [Instruction.wordsAfter_x h]
  exact TakesUp.sourceWord opcode machine

theorem follows_of_not_x {set : InstructionSet} (hset : machine.cpu.config.instructionSet = set)
    {opcode : UInt16} (hx : Instruction.ofOpcode? set opcode ≠ some .x) (depth : Nat) :
    ChainEnd.Follows set (links depth opcode machine).1 machine.cpu.pc
      (chase depth opcode machine).1 (chase depth opcode machine).2.cpu.pc := by
  subst hset
  rw [chase_of_not_x hx, links_of_ne_x hx]
  constructor
  case instruction_eq => rfl
  case pc_eq => rw [ChainEnd.wordsLeft_eq rfl hx, List.map_nil, List.sum_nil, Nat.zero_add]

theorem follows_chase {set : InstructionSet} (hset : machine.cpu.config.instructionSet = set)
    (depth : Nat) (opcode : UInt16) :
    ChainEnd.Follows set (links depth opcode machine).1 machine.cpu.pc
      (chase depth opcode machine).1 (chase depth opcode machine).2.cpu.pc := by
  induction depth generalizing opcode machine with
  | zero =>
      by_cases hx : Instruction.ofOpcode? set opcode = some .x
      case neg => exact follows_of_not_x hset hx 0
      subst hset
      obtain ⟨cycles, hchase⟩ := chase_zero_of_x hx
      rw [hchase]
      constructor
      case instruction_eq => exact hx.symm
      case pc_eq =>
        change (sourceWord opcode machine).2.cpu.pc + 0 = machine.cpu.pc + .ofNat (2 * (0 + _))
        rw [UInt16.add_zero, Nat.zero_add, pc_sourceWord hx]
  | succ depth ih =>
      by_cases hx : Instruction.ofOpcode? set opcode = some .x
      case neg => exact follows_of_not_x hset hx (depth + 1)
      have hconfig := congrArg (·.instructionSet) (config_sourceWord opcode machine)
      have hrest := ih (hconfig.trans hset) (sourceWord opcode machine).1.1
      subst hset
      obtain ⟨cycles, hchase⟩ := chase_succ_of_x hx (Prod.eta _).symm
      rw [hchase, links_of_x hx]
      exact (pc_sourceWord hx machine ▸ hrest).link cycles

theorem pc_conclude {last : ChainEnd} {machine : Machine β}
    (h : ∀ instruction ∈ last.instruction, instruction.branches machine.cpu.st = false) :
    (conclude last machine).2.cpu.pc = machine.cpu.pc + .ofNat (2 * last.wordsLeft) := by
  rw [ChainEnd.wordsLeft]
  split
  · next hnone =>
      rw [conclude, cpu_bind, hnone]
      exact TakesUp.illegal machine
  · next hx =>
      rw [conclude, cpu_bind, hx]
      exact (UInt16.add_zero _).symm
  · next instruction hother hinstruction =>
      rw [conclude_snd hinstruction (hother ·)]
      exact pc_perform (h instruction hinstruction) (hother ·) last.opcode

end Exec

namespace Machine

/-- The opcodes of the X instructions on the way to what an iteration executes. -/
def links (machine : Machine β) : List UInt16 :=
  ((do Exec.links Exec.maxExecuteDepth (← Exec.fetch) : Exec β (List UInt16)) machine.checked).1

variable {machine : Machine β}

theorem follows_found (machine : Machine β) :
    ChainEnd.Follows machine.checked.cpu.config.instructionSet machine.links
      (machine.checked.cpu.pc + 2) machine.found.1 machine.found.2.cpu.pc := by
  have hfetch := Exec.cpu_fetch machine.checked
  have hset := congrArg (·.config.instructionSet) hfetch
  have hpc : (Exec.fetch machine.checked).2.cpu.pc = machine.checked.cpu.pc + 2 :=
    congrArg (·.pc) hfetch
  rw [← hpc]
  exact Exec.follows_chase hset Exec.maxExecuteDepth (Exec.fetch machine.checked).1

theorem st_found (machine : Machine β) : machine.found.2.cpu.st = machine.checked.cpu.st :=
  (Cpu.accessStable_of_st (· = machine.checked.cpu.st)).machine.found rfl

theorem ahead_checked (machine : Machine β) :
    Instruction.ofOpcode? (Exec.fetch machine.checked).2.cpu.config.instructionSet
      (Exec.fetch machine.checked).1 = machine.checked.ahead := by
  rw [Exec.cpu_fetch]
  rfl

theorem links_of_ahead (h : machine.checked.ahead ≠ some .x) : machine.links = [] := by
  rw [← ahead_checked] at h
  exact Exec.links_of_ne_x h Exec.maxExecuteDepth

theorem head?_links_of_ahead (h : machine.checked.ahead = some .x) :
    machine.links.head? = some (Exec.fetch machine.checked).1 := by
  rw [← ahead_checked] at h
  exact congrArg List.head? (Exec.links_of_x h 15)

theorem found_of_not_x (h : machine.checked.ahead ≠ some .x) :
    machine.found.1.opcode = (Exec.fetch machine.checked).1 ∧
      machine.found.1.instruction = machine.checked.ahead := by
  have hfound := machine.ahead_checked
  rw [← hfound] at h
  have hchase := Exec.chase_of_not_x h Exec.maxExecuteDepth
  rw [hfound] at hchase
  exact ⟨congrArg (·.1.opcode) hchase, congrArg (·.1.instruction) hchase⟩

/-- The words of the program that follow an opcode of it. -/
def wordsAfter (machine : Machine β) (opcode : UInt16) : Nat :=
  Instruction.wordsAfter machine.cpu.config.instructionSet opcode

/-- How an iteration that executes an opcode moves the program counter on, from where the interrupt
check has left it to where the next iteration finds it. -/
structure KeepsStep (machine next : Machine β) : Prop where
  /-- The check leaves it alone, unless it takes an interrupt. -/
  checked : machine.acknowledged = [] → machine.checked.cpu.pc = machine.cpu.pc
  /-- An opcode other than X takes up its own words, unless it branches. -/
  plain : machine.checked.ahead ≠ some .x →
    (∀ instruction ∈ machine.checked.ahead,
      instruction.branches machine.checked.cpu.st = false) →
    next.cpu.pc = machine.checked.cpu.pc +
      .ofNat (2 * (1 + machine.checked.wordsAfter (Exec.fetch machine.checked).1))
  /-- An X, and any other on the way to what it executes, takes up its own words. -/
  linked : machine.checked.ahead = some .x →
    machine.links.head? = some (Exec.fetch machine.checked).1 ∧
    (machine.executes ≠ some .x → machine.found.2.cpu.pc = machine.checked.cpu.pc +
      .ofNat (2 * (1 + (machine.links.map machine.checked.wordsAfter).sum)))
  /-- The words after the opcode at the end follow, unless that branches. -/
  chained : (∀ instruction ∈ machine.executes,
      instruction.branches machine.checked.cpu.st = false) →
    next.cpu.pc = machine.checked.cpu.pc + .ofNat (2 * (1 +
      (machine.links.map machine.checked.wordsAfter).sum +
      machine.checked.wordsAfter machine.found.1.opcode))

theorem pc_iterate (hawake : machine.checked.cpu.idle = false)
    (h : ∀ instruction ∈ machine.executes, instruction.branches machine.checked.cpu.st = false)
    (limit : Nat) :
    (Exec.iterate limit machine).2.cpu.pc = machine.checked.cpu.pc + .ofNat (2 * (1 +
      (machine.links.map machine.checked.wordsAfter).sum +
      machine.checked.wordsAfter machine.found.1.opcode)) := by
  have hpc : (Exec.iterate limit machine).2.cpu.pc = machine.worked.cpu.pc :=
    Cpu.eq_of_still (·.pc) (fun _ => rfl) (machine.still_iterate limit)
  rw [executes_of_awake hawake, ← st_found] at h
  rw [hpc, worked_of_awake hawake, Exec.pc_conclude h, machine.follows_found.pc_eq,
    UInt16.add_assoc, Nat.add_assoc, Nat.mul_add 2 1, UInt16.ofNat_add]
  rfl

theorem pc_found (hawake : machine.checked.cpu.idle = false)
    (h : machine.executes ≠ some .x) :
    machine.found.2.cpu.pc = machine.checked.cpu.pc +
      .ofNat (2 * (1 + (machine.links.map machine.checked.wordsAfter).sum)) := by
  have hfollows := machine.follows_found
  rw [executes_of_awake hawake] at h
  have hpc := hfollows.pc_eq
  rw [ChainEnd.wordsLeft_eq hfollows.instruction_eq h, Nat.mul_add, UInt16.ofNat_add,
    ← UInt16.add_assoc] at hpc
  rw [(UInt16.add_left_inj _).mp hpc, UInt16.add_assoc, Nat.mul_add 2 1, UInt16.ofNat_add]
  rfl

end Machine

theorem keepsStep_iterate {machine : Machine β} (hawake : machine.checked.cpu.idle = false)
    (limit : Nat) : machine.KeepsStep (Exec.iterate limit machine).2 := by
  constructor
  case checked =>
    intro hacknowledged
    rw [Machine.checked_of_acknowledged hacknowledged]
    rfl
  case plain =>
    intro hx hbranches
    obtain ⟨hopcode, hinstruction⟩ := Machine.found_of_not_x hx
    rw [← hinstruction, ← Machine.executes_of_awake hawake] at hbranches
    rw [Machine.pc_iterate hawake hbranches, Machine.links_of_ahead hx, hopcode]
    rfl
  case linked => exact fun hx => ⟨Machine.head?_links_of_ahead hx, Machine.pc_found hawake⟩
  case chained => exact fun hbranches => Machine.pc_iterate hawake hbranches limit

end TmsCores.Tms9900
