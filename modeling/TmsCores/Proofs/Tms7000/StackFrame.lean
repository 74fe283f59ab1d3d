import TmsCores.Proofs.Tms7000.Course
import TmsCores.Proofs.Tms7000.Stack

namespace TmsCores.Tms7000

/-- What goes onto the stack to be taken back together. -/
inductive Frame
  /-- The context of an interrupt. -/
  | context (pc : UInt16) (st : UInt8)
  /-- The return address of a CALL or a trap. -/
  | address (pc : UInt16)
  | status (st : UInt8)
  | byte (value : UInt8)

namespace Frame

def bytes : Frame → List UInt8
  | .context pc st => [Word.low pc, Word.high pc, st]
  | .address pc => [Word.low pc, Word.high pc]
  | .status st => [st]
  | .byte value => [value]

def size (frame : Frame) : Nat :=
  frame.bytes.length

/-- A status register in the frame holds nothing that it cannot hold on the chip. -/
def IsStored : Frame → Prop
  | .context _ st | .status st => Status.IsStored st
  | .address _ | .byte _ => True

end Frame

/-- The bytes that an extended address takes up after the opcode. -/
def ExtendedMode.size : ExtendedMode → UInt16
  | .direct | .indexed => 2
  | .indirect => 1

variable {β : Type} [Bus β]

namespace Machine

variable {machine : Machine β}

/-- The instruction that the program counter points to. -/
def ahead (machine : Machine β) : Option Instruction :=
  (Instruction.ofOpcode? (Exec.fetch machine).1).map (·.operation)

/-- The address of the register that the instruction ahead works on. -/
def targetAddress (machine : Machine β) (target : Target) : UInt16 :=
  (Exec.targetNumber target (Exec.fetch machine).2).1.toUInt16

/-- A frame goes onto the stack: an interrupt is taken, or an instruction pushes. -/
inductive Saves : Frame → Machine β → Machine β → Prop
  | interrupt {machine : Machine β} {pending : PendingLine}
      (hpending : machine.cpu.pending = some pending) :
      Saves (.context machine.cpu.pc machine.cpu.st) machine (Exec.serviceInterrupt machine).2
  | call {machine : Machine β} {mode : ExtendedMode}
      (hahead : machine.ahead = some (.extended .call mode)) :
      Saves (.address (machine.cpu.pc + 1 + mode.size)) machine (Exec.execute machine).2
  | trap {machine : Machine β} {number : UInt8} (hahead : machine.ahead = some (.trap number)) :
      Saves (.address (machine.cpu.pc + 1)) machine (Exec.execute machine).2
  | illegal {machine : Machine β} (hahead : machine.ahead = none)
      (hillegal : machine.cpu.config.illegal = .trap) :
      Saves (.address (machine.cpu.pc + 1)) machine (Exec.execute machine).2
  | pushSt {machine : Machine β} (hahead : machine.ahead = some .pushSt) :
      Saves (.status machine.cpu.st) machine (Exec.execute machine).2
  | push {machine : Machine β} {target : Target}
      (hahead : machine.ahead = some (.single .push target)) :
      Saves (.byte (Exec.read (machine.targetAddress target) machine).1) machine
        (Exec.execute machine).2

/-- An instruction takes a frame from the stack.  A POP has a destination in memory. -/
inductive TakesBack : Frame → Option UInt16 → Machine β → Machine β → Prop
  | reti {machine : Machine β} {pc : UInt16} {st : UInt8} (hahead : machine.ahead = some .reti) :
      TakesBack (.context pc st) none machine (Exec.execute machine).2
  | rets {machine : Machine β} {pc : UInt16} (hahead : machine.ahead = some .rets) :
      TakesBack (.address pc) none machine (Exec.execute machine).2
  | popSt {machine : Machine β} {st : UInt8} (hahead : machine.ahead = some .popSt) :
      TakesBack (.status st) none machine (Exec.execute machine).2
  | pop {machine : Machine β} {value : UInt8} {target : Target}
      (hahead : machine.ahead = some (.single .pop target)) :
      TakesBack (.byte value) (some (machine.targetAddress target)) machine
        (Exec.execute machine).2

/-- The contents of a frame are back where they came from, or at the destination of a POP. -/
def HasBack (machine : Machine β) : Frame → Option UInt16 → Prop
  | .context pc st, _ => machine.cpu.pc = pc ∧ machine.cpu.st = st
  | .address pc, _ => machine.cpu.pc = pc
  | .status st, _ => machine.cpu.st = st
  | .byte value, destination => ∃ address ∈ destination, (Exec.read address machine).1 = value

theorem execute_of_ahead (ram : Ram β) {instruction : Instruction}
    (h : machine.ahead = some instruction) : ∃ value next,
    Exec.fetch machine = (value, next) ∧
      ram.Undisturbed (machine.withPc (machine.cpu.pc + 1)) next ∧
      (Exec.execute machine).2 = (Exec.perform instruction next).2 := by
  have hmachine : ram.Undisturbed machine machine := .refl machine
  obtain ⟨value, next, hfetch, hnext⟩ := Exec.fetch_spec hmachine
  rw [ahead, hfetch, Option.map_eq_some_iff] at h
  obtain ⟨entry, hentry, rfl⟩ := h
  refine ⟨value, next, hfetch, hnext, ?_⟩
  rw [Exec.execute, bind_of_eq hfetch, hentry, bind_snd]
  rfl

theorem execute_of_illegal (ram : Ram β) (h : machine.ahead = none) : ∃ next,
    ram.Undisturbed (machine.withPc (machine.cpu.pc + 1)) next ∧
      (Exec.execute machine).2 = (Exec.illegal next).2 := by
  have hmachine : ram.Undisturbed machine machine := .refl machine
  obtain ⟨value, next, hfetch, hnext⟩ := Exec.fetch_spec hmachine
  rw [ahead, hfetch, Option.map_eq_none_iff] at h
  refine ⟨next, hnext, ?_⟩
  rw [Exec.execute, bind_of_eq hfetch, h]

end Machine

namespace Exec

variable {ram : Ram β} {before machine : Machine β}

theorem fetchWord_spec (h : ram.Undisturbed before machine) : ∃ operand next,
    fetchWord machine = (operand, next) ∧
      ram.Undisturbed (before.withPc (before.cpu.pc + 2)) next := by
  obtain ⟨hi, first, hhi, hfirst⟩ := fetch_spec h
  obtain ⟨lo, second, hlo, hsecond⟩ := fetch_spec hfirst
  have hpc : before.cpu.pc + 1 + 1 = before.cpu.pc + 2 := by grind
  rw [fetchWord, bind_of_eq hhi, bind_of_eq hlo]
  exact ⟨_, second, rfl, hpc ▸ hsecond⟩

theorem extendedOperand_spec (h : ram.Undisturbed before machine) (mode : ExtendedMode) :
    ∃ operand next, extendedOperand mode machine = (operand, next) ∧
      ram.Undisturbed (before.withPc (before.cpu.pc + mode.size)) next := by
  cases mode with
  | direct => exact fetchWord_spec h
  | indirect =>
      obtain ⟨number, first, hfetch, hfirst⟩ := fetch_spec h
      obtain ⟨hi, second, hhi, hsecond, -⟩ := read_spec hfirst (number - 1).toUInt16
      obtain ⟨lo, third, hlo, hthird, -⟩ := read_spec hsecond number.toUInt16
      rw [extendedOperand, bind_of_eq hfetch, readPair, readRegister, readRegister,
        bind_of_eq hhi, bind_of_eq hlo]
      exact ⟨_, third, rfl, hthird⟩
  | indexed =>
      obtain ⟨base, next, hfetch, hnext⟩ := fetchWord_spec h
      rw [extendedOperand, bind_of_eq hfetch]
      exact ⟨_, _, rfl, hnext.cpu_eq, hnext.byte_eq⟩

theorem targetNumber_spec (h : ram.Undisturbed before machine) (target : Target) :
    ∃ number pc next, targetNumber target machine = (number, next) ∧
      ram.Undisturbed (before.withPc pc) next := by
  cases target with
  | a | b => exact ⟨_, before.cpu.pc, machine, rfl, h⟩
  | register =>
      obtain ⟨number, next, hfetch, hnext⟩ := fetch_spec h
      exact ⟨number, _, next, hfetch, hnext⟩

theorem sameStack_jump (machine : Machine β) (address : UInt16) :
    ram.SameStack machine (((do setPc (← readWord address)) : Exec β Unit) machine).2 := by
  have hmachine : ram.Undisturbed machine machine := .refl machine
  obtain ⟨hi, first, hhi, hfirst, -⟩ := read_spec hmachine address
  obtain ⟨lo, second, hlo, hsecond, -⟩ := read_spec hfirst (address + 1)
  have hread : readWord address machine = (Word.ofBytes hi lo, second) := by
    rw [readWord, bind_of_eq hhi, bind_of_eq hlo]
    rfl
  rw [bind_of_eq hread]
  have hsame := hsecond.sameStack
  exact ⟨⟨hsame.config_eq, hsame.file_eq, hsame.byte_eq⟩, hsame.sp_eq⟩

theorem sameStack_interruptVector (machine : Machine β) (line : UInt8) :
    ram.SameStack machine (interruptVector line machine).2 :=
  ⟨⟨rfl, rfl, fun _ => rfl⟩, rfl⟩

theorem sameStack_modifySt (machine : Machine β) (change : UInt8 → UInt8) :
    ram.SameStack machine (modifySt change machine).2 :=
  ⟨⟨rfl, rfl, fun _ => rfl⟩, rfl⟩

theorem sameStack_acknowledge (machine : Machine β) (line : UInt8) :
    ram.SameStack machine (acknowledge line machine).2 :=
  ⟨⟨rfl, rfl, ram.byte_acknowledge machine.bus line⟩, rfl⟩

theorem sameStack_wake (machine : Machine β) : ram.SameStack machine (wake machine).2 := by
  rw [wake, cpu_bind]
  split
  · exact ⟨⟨rfl, rfl, ram.byte_idleChanged machine.bus false⟩, rfl⟩
  · exact ⟨⟨rfl, rfl, fun _ => rfl⟩, rfl⟩

section Writing

variable (h : ram.Undisturbed before machine)
  (hfile : before.cpu.config.registerCount.toNat ≤ before.cpu.file.size)

include h hfile

theorem storeOutcome_spec (number : UInt8) (outcome : Outcome) : ∃ file : Array UInt8,
    file.size = before.cpu.file.size ∧
    (storeOutcome number outcome machine).2.cpu =
      { before.cpu with st := outcome.st, file := file } ∧
    ∀ {address}, ram.Covers (.ofAddress before.cpu.config address) →
      ram.byteAt (storeOutcome number outcome machine).2 address =
        if number.toUInt16 = address then outcome.value else ram.byteAt before address := by
  let marked : Machine β := { before with cpu := { before.cpu with st := outcome.st } }
  have hmarked : ram.Undisturbed marked (modifySt (fun _ => outcome.st) machine).2 :=
    ⟨congrArg (fun cpu : Cpu => { cpu with st := outcome.st }) h.cpu_eq, h.byte_eq⟩
  rw [storeOutcome, seq_snd]
  generalize (modifySt (fun _ => outcome.st) machine).2 = stored at hmarked ⊢
  obtain ⟨file, hsize, hcpu⟩ := cpu_writeRegister number outcome.value stored
  rw [hmarked.cpu_eq] at hsize hcpu
  exact ⟨file, hsize, hcpu, byteAt_writeRegister hmarked hfile number outcome.value⟩

variable (hpage : ram.CoversPage before.cpu.config)

include hpage

theorem pushed_trap (number : UInt8) :
    ram.Pushed [Word.low before.cpu.pc, Word.high before.cpu.pc] before
      (trap number machine).2 := by
  have hpushed := pushed_pushPc h hfile hpage
  rw [trap, seq_snd]
  generalize (pushPc machine).2 = pushed at hpushed ⊢
  exact hpushed.of_after hpage (sameStack_jump pushed _)

theorem pushed_call (mode : ExtendedMode) :
    ram.Pushed [Word.low (before.cpu.pc + mode.size), Word.high (before.cpu.pc + mode.size)]
      before (extended .call mode machine).2 := by
  obtain ⟨operand, next, hoperand, hnext⟩ := extendedOperand_spec h mode
  have hpushed := pushed_pushPc hnext hfile hpage
  rw [extended, bind_of_eq hoperand, seq_snd]
  generalize (pushPc next).2 = pushed at hpushed ⊢
  have hjump : ram.SameStack pushed (setPc operand pushed).2 :=
    ⟨⟨rfl, rfl, fun _ => rfl⟩, rfl⟩
  exact (hpushed.of_withPc hpage).of_after hpage hjump

theorem pushed_pushRegister (target : Target) :
    ram.Pushed [ram.byteAt before (targetNumber target machine).1.toUInt16] before
      (single .push target machine).2 := by
  obtain ⟨number, pc, first, hnumber, hfirst⟩ := targetNumber_spec h target
  obtain ⟨next, hread, hnext⟩ := readRegister_spec hfirst hpage number
  have hpushed := pushed_push hnext hfile hpage (ram.byteAt before number.toUInt16)
  rw [single, bind_of_eq hnumber, hnumber]
  dsimp only
  rw [bind_of_eq hread, seq_snd]
  change ram.Pushed _ before ((do
    modifySt (Status.logical · (ram.byteAt before number.toUInt16))
    return 0 : Exec β Nat) (push (ram.byteAt before number.toUInt16) next).2).2
  generalize (push _ next).2 = pushed at hpushed ⊢
  rw [seq_snd, pure_snd]
  exact (hpushed.of_withPc hpage).of_after hpage (sameStack_modifySt pushed _)

theorem pushed_enterHandler (line : UInt8) :
    ram.Pushed [Word.low before.cpu.pc, Word.high before.cpu.pc, before.cpu.st] before
      (enterHandler line machine).2 := by
  obtain ⟨file, hsize, hcpu⟩ := cpu_push before.cpu.st machine
  have hfirst := pushed_push h hfile hpage before.cpu.st
  rw [enterHandler, cpu_bind, h.cpu_eq, seq_snd]
  generalize (push before.cpu.st machine).2 = first at hcpu hfirst ⊢
  have hpc : first.cpu.pc = before.cpu.pc := by rw [hcpu, h.cpu_eq]
  have hfirstPage : ram.CoversPage first.cpu.config := hfirst.config_eq.symm ▸ hpage
  rw [← hfirst.config_eq, ← hfirst.file_size] at hfile
  have hpushed := hfirst.append (pushed_pushPc (.refl first) hfile hfirstPage)
  rw [hpc] at hpushed
  rw [seq_snd]
  generalize (pushPc first).2 = pushed at hpushed ⊢
  rw [seq_snd]
  have hcleared := hpushed.of_after hpage (sameStack_modifySt pushed fun _ => 0)
  generalize (modifySt _ pushed).2 = cleared at hcleared ⊢
  rw [bind_snd]
  exact (hcleared.of_after hpage (sameStack_interruptVector cleared line)).of_after hpage
    (sameStack_jump _ _)

end Writing

theorem pushed_serviceInterrupt
    (hfile : machine.cpu.config.registerCount.toNat ≤ machine.cpu.file.size)
    (hpage : ram.CoversPage machine.cpu.config) {pending : PendingLine}
    (hpending : machine.cpu.pending = some pending) :
    ram.Pushed [Word.low machine.cpu.pc, Word.high machine.cpu.pc, machine.cpu.st] machine
      (serviceInterrupt machine).2 := by
  have hentered := pushed_enterHandler (.refl machine) hfile hpage pending.line
  rw [serviceInterrupt_snd hpending]
  generalize (enterHandler pending.line machine).2 = entered at hentered ⊢
  exact (hentered.of_after hpage (sameStack_acknowledge entered pending.line)).of_after hpage
    (sameStack_wake _)

end Exec

theorem Machine.Saves.pushed {ram : Ram β} {frame : Frame} {before entered : Machine β}
    (h : Saves frame before entered)
    (hfile : before.cpu.config.registerCount.toNat ≤ before.cpu.file.size)
    (hpage : ram.CoversPage before.cpu.config) : ram.Pushed frame.bytes before entered := by
  cases h with
  | interrupt hpending => exact Exec.pushed_serviceInterrupt hfile hpage hpending
  | call hahead =>
      obtain ⟨_, next, -, hnext, hexecute⟩ := execute_of_ahead ram hahead
      rw [hexecute, Exec.perform, seq_snd, pure_snd]
      exact (Exec.pushed_call hnext hfile hpage _).of_withPc hpage
  | trap hahead =>
      obtain ⟨_, next, -, hnext, hexecute⟩ := execute_of_ahead ram hahead
      rw [hexecute, Exec.perform, seq_snd, pure_snd]
      exact (Exec.pushed_trap hnext hfile hpage _).of_withPc hpage
  | illegal hahead hillegal =>
      obtain ⟨next, hnext, hexecute⟩ := execute_of_illegal ram hahead
      have hconfig : next.cpu.config.illegal = .trap := by
        rw [hnext.cpu_eq]
        exact hillegal
      rw [hexecute, Exec.illegal, Exec.cpu_bind, hconfig]
      dsimp only
      rw [seq_snd, pure_snd]
      exact (Exec.pushed_trap hnext hfile hpage 0).of_withPc hpage
  | pushSt hahead =>
      obtain ⟨_, next, -, hnext, hexecute⟩ := execute_of_ahead ram hahead
      rw [hexecute, Exec.perform, Exec.cpu_bind, hnext.cpu_eq, seq_snd, pure_snd]
      exact (Exec.pushed_push hnext hfile hpage _).of_withPc hpage
  | push hahead =>
      obtain ⟨_, next, hfetch, hnext, hexecute⟩ := execute_of_ahead ram hahead
      rw [hexecute, Exec.perform, Frame.bytes, targetAddress, hfetch, Exec.read_fst (hpage _)]
      exact (Exec.pushed_pushRegister hnext hfile hpage _).of_withPc hpage

end TmsCores.Tms7000
