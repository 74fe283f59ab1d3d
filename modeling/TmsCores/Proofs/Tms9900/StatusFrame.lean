import TmsCores.Bus.Flat
import TmsCores.Proofs.Tms9900.Course
import TmsCores.Proofs.Tms9900.Reachability

namespace TmsCores.Tms9900

namespace Instruction

def changesMask : Instruction → Bool
  | .limi | .rset => true
  | _ => false

def setsParity (opcode : UInt16) : Instruction → Bool
  | .dual _ .byte => true
  | .ldcr | .stcr => cruCount opcode ≤ 8
  | _ => false

def setsCarry : Instruction → Bool
  | .dual .a _ | .dual .s _ | .immediate .ai => true
  | .single .inc | .single .inct | .single .dec | .single .dect => true
  | .single .neg | .single .abs | .shift _ => true
  | _ => false

/-- The instructions that do not tell whether anything is greater. -/
def keepsOrder : Instruction → Bool
  | .bitwise .coc | .bitwise .czc | .cruBit _ | .mpy | .div | .jump _ => true
  | .single .blwp | .single .b | .single .bl | .single .clr | .single .seto | .single .swpb => true
  | .xop | .stwp | .stst | .lwpi | .lwp | .limi | .rset => true
  | .idle | .ckon | .ckof | .lrex | .x => true
  | _ => false

/-- The instructions that do not tell whether anything is equal. -/
def keepsEqual : Instruction → Bool
  | .bitwise _ | .cruBit .tb => false
  | instruction => instruction.keepsOrder

theorem statusBits_and_parity {instruction : Instruction} {opcode : UInt16}
    (h : instruction.setsParity opcode = false) :
    instruction.statusBits (cruWidth (cruCount opcode)) &&& Status.parity = 0 := by
  have htransfer (hcount : decide (cruCount opcode ≤ 8) = false) :
      Status.resultBits (cruWidth (cruCount opcode)) &&& Status.parity = 0 := by
    rw [cruWidth, if_neg (of_decide_eq_false hcount)]
    decide
  generalize cruWidth (cruCount opcode) = transfer at htransfer ⊢
  cases instruction with
  | ldcr | stcr => exact htransfer h
  | dual operation width =>
      cases width with
      | byte => exact absurd h nofun
      | word => cases transfer <;> cases operation <;> decide
  | bitwise operation | jump operation | cruBit operation | shift operation =>
      cases transfer <;> cases operation <;> decide
  | single operation | immediate operation => cases transfer <;> cases operation <;> decide
  | _ => cases transfer <;> decide

/-- What the table of status bits says of each bit but the parity. -/
structure StatusClasses (transfer : Width) (instruction : Instruction) : Prop where
  mask : instruction.changesMask = false → instruction.statusBits transfer &&& Status.mask = 0
  extended : instruction ≠ .xop → instruction.statusBits transfer &&& Status.extended = 0
  overflowInterrupt : instruction.statusBits transfer &&& Status.overflowInterrupt = 0
  carry : instruction.setsCarry = false → instruction.statusBits transfer &&& Status.carry = 0
  overflow : instruction.canOverflow = false →
    instruction.statusBits transfer &&& Status.overflow = 0
  order : instruction.keepsOrder = true → instruction.statusBits transfer &&&
    (Status.logicalGreater ||| Status.arithmeticGreater) = 0
  equal : instruction.keepsEqual = true → instruction.statusBits transfer &&& Status.equal = 0

theorem statusClasses (transfer : Width) (instruction : Instruction) :
    StatusClasses transfer instruction := by
  constructor <;> cases instruction with
  | dual operation width => cases transfer <;> cases operation <;> cases width <;> decide
  | bitwise operation | jump operation | cruBit operation | shift operation =>
      cases transfer <;> cases operation <;> decide
  | single operation | immediate operation => cases transfer <;> cases operation <;> decide
  | _ => cases transfer <;> decide

end Instruction

namespace Cpu

theorem accessStable_of_st (Q : UInt16 → Prop) : AccessStable fun cpu => Q cpu.st where
  setByte h _ _ := h
  setDecrementer h _ := h
  setInternalBit h hchanged := by
    have hst := eq_of_core (·.st) (fun _ => rfl) (core_of_setInternalBit? hchanged)
    exact hst.symm ▸ h
  skip h _ := h
  setPc h _ := h
  setWp h _ := h

theorem clockStable_of_st (Q : UInt16 → Prop) : ClockStable fun cpu => Q cpu.st where
  tick {cpu} h := by
    have hst : cpu.tick.st = cpu.st := eq_of_core (·.st) (fun _ => rfl) cpu.core_tick
    exact hst.symm ▸ h
  drive {cpu} h line state := by
    have hst := eq_of_core (·.st) (fun _ => rfl) (cpu.core_drive line state)
    exact hst.symm ▸ h
  advance h _ := h

theorem st_overflowTrap (cpu : Cpu) : cpu.overflowTrap.st = cpu.st :=
  eq_of_core (·.st) (fun _ => rfl) cpu.core_overflowTrap

end Cpu

variable {β : Type} [Bus β] {machine : Machine β}

namespace Machine

theorem st_iterate (machine : Machine β) (limit : Nat) :
    (Exec.iterate limit machine).2.cpu.st = machine.worked.cpu.st := by
  have hclock := (Cpu.clockStable_of_st (· = machine.worked.cpu.st)).simulation (β := β)
  rw [iterate_snd]
  exact corresponds_self_iff.mp (hclock.account _) machine.worked rfl

/-- An instruction leaves the bits alone that are not in the table. -/
theorem st_worked_and (hload : ∀ instruction ∈ machine.executes, ¬instruction.LoadsStatus)
    {kept : UInt16} (hkept : ∀ instruction ∈ machine.executes,
      instruction.statusBits (cruWidth (cruCount machine.found.1.opcode)) &&& kept = 0) :
    machine.worked.cpu.st &&& kept = machine.checked.cpu.st &&& kept := by
  have hstable := Cpu.accessStable_of_st (· &&& kept = machine.checked.cpu.st &&& kept)
  refine hstable.machine.worked (fun _ _ hstate => hstate) (fun instruction hexecutes => ?_) rfl
  exact
    { flags := fun _ change hchange => corresponds_self_iff.mpr fun state hstate =>
        (hchange.and_eq (hkept instruction hexecutes) state.cpu.st).trans hstate
      clearMask := fun hreset => corresponds_self_iff.mpr fun state hstate => by
        subst hreset
        exact ((Status.Changes.withMask (by decide)).and_eq (hkept .rset hexecutes) _).trans hstate
      trap := fun _ => corresponds_self_iff.mpr fun state hstate =>
        (congrArg (· &&& kept) state.cpu.st_overflowTrap).trans hstate
      hold := fun _ => corresponds_self_iff.mpr fun _ hstate => hstate
      idle := fun _ => corresponds_self_iff.mpr fun _ hstate => hstate
      load := fun hloads => absurd hloads (hload instruction hexecutes) }

end Machine

namespace Exec

omit [Bus β] in
theorem setOverflow_leads (st : UInt16) :
    Leads (Machine.Has (·.st = st)) (Machine.Has (·.st = st ||| Status.overflow))
      (setOverflow (β := β)) := by
  rintro state rfl
  exact Cpu.st_overflowTrap _

theorem xop_leads (opcode : UInt16) :
    Leads (fun _ => True) (Machine.Has (Status.has ·.st Status.extended = true))
      (xop (β := β) opcode) := by
  refine .after _ fun source => .after _ fun _ => .after _ fun _ => ?_
  exact fun state _ => Status.has_withBit (by decide) state.cpu.st true

/-- A signed division that leaves the overflow bit set has done nothing else to the status. -/
theorem divs_leads (opcode st : UInt16) :
    Leads (Machine.Has (·.st = st))
      (Machine.Has fun cpu => Status.has cpu.st Status.overflow = true →
        cpu.st = st ||| Status.overflow) (divs (β := β) opcode) := by
  have hoperands := (Cpu.accessStable_of_st (· = st)).machine.transfers.operands (β := β)
  refine Leads.bind (corresponds_self_iff.mp (hoperands.sourceWord opcode)) ?_
  rintro ⟨divisor, cycles⟩
  refine Leads.bind (corresponds_self_iff.mp (hoperands.readRegister 0)) fun hi => ?_
  refine Leads.bind (corresponds_self_iff.mp (hoperands.readRegister 1)) fun lo => ?_
  cases Division.signedQuotient? hi lo divisor with
  | none => exact (setOverflow_leads st).bind fun _ state hstate _ => hstate
  | some quotient =>
      refine .after _ fun _ => .after _ fun _ => ?_
      intro state _ hoverflow
      have hclear (st : UInt16) : Status.has (st &&& ~~~Status.overflow) Status.overflow = false :=
        Status.has_withBit (by decide) st false
      exact absurd (hoverflow.symm.trans (hclear _)) nofun

end Exec

/-- What an opcode may do to the status register: the bits before and after an instruction, or an
opcode that stands for none. -/
structure StatusFrame (executed : Option Instruction) (opcode before after : UInt16) : Prop where
  mask : executed.any (·.changesMask) = false → after &&& Status.mask = before &&& Status.mask
  extended : after &&& Status.extended = before &&& Status.extended ∨
    executed = some .xop ∧ Status.has after Status.extended = true
  overflowInterrupt : after &&& Status.overflowInterrupt = before &&& Status.overflowInterrupt
  parity : executed.any (·.setsParity opcode) = false →
    after &&& Status.parity = before &&& Status.parity
  carry : executed.any (·.setsCarry) = false → after &&& Status.carry = before &&& Status.carry
  overflow : executed.any (·.canOverflow) = false →
    after &&& Status.overflow = before &&& Status.overflow
  order : executed.all (·.keepsOrder) = true →
    after &&& (Status.logicalGreater ||| Status.arithmeticGreater) =
      before &&& (Status.logicalGreater ||| Status.arithmeticGreater)
  equal : executed.all (·.keepsEqual) = true → after &&& Status.equal = before &&& Status.equal
  /-- A signed division clears the overflow bit unless it overflows. -/
  divs : executed = some .divs → Status.has after Status.overflow = true →
    after = before ||| Status.overflow

/-- Every instruction touches only the status bits of its class, whether it is met directly or at
the end of a chain of X instructions. -/
theorem status_changes_by_class (machine : Machine β) (limit : Nat)
    (hload : ∀ instruction ∈ machine.executes, ¬instruction.LoadsStatus) :
    StatusFrame machine.executes machine.found.1.opcode machine.checked.cpu.st
      (Exec.iterate limit machine).2.cpu.st := by
  have hkeeps {kept : UInt16} (hkept : ∀ instruction ∈ machine.executes,
      instruction.statusBits (cruWidth (cruCount machine.found.1.opcode)) &&& kept = 0) :
      machine.worked.cpu.st &&& kept = machine.checked.cpu.st &&& kept :=
    Machine.st_worked_and hload hkept
  have hclasses (instruction : Instruction) :=
    instruction.statusClasses (cruWidth (cruCount machine.found.1.opcode))
  have hnone {p : Instruction → Bool} (h : machine.executes.any p = false) :
      ∀ instruction ∈ machine.executes, p instruction = false := by
    intro instruction hexecutes
    rw [Option.mem_def.mp hexecutes] at h
    exact h
  have hall {p : Instruction → Bool} (h : machine.executes.all p = true) :
      ∀ instruction ∈ machine.executes, p instruction = true := by
    intro instruction hexecutes
    rw [Option.mem_def.mp hexecutes] at h
    exact h
  rw [machine.st_iterate]
  constructor
  case mask => exact fun h => hkeeps fun i hi => (hclasses i).mask (hnone h i hi)
  case extended =>
    by_cases hxop : machine.executes = some .xop
    · refine .inr ⟨hxop, ?_⟩
      rw [Machine.worked_of_executes hxop nofun]
      exact Exec.xop_leads machine.found.1.opcode machine.found.2 trivial
    · refine .inl (hkeeps fun i hi => (hclasses i).extended ?_)
      rintro rfl
      exact hxop hi
  case overflowInterrupt => exact hkeeps fun i _ => (hclasses i).overflowInterrupt
  case parity => exact fun h => hkeeps fun i hi => i.statusBits_and_parity (hnone h i hi)
  case carry => exact fun h => hkeeps fun i hi => (hclasses i).carry (hnone h i hi)
  case overflow => exact fun h => hkeeps fun i hi => (hclasses i).overflow (hnone h i hi)
  case order => exact fun h => hkeeps fun i hi => (hclasses i).order (hall h i hi)
  case equal => exact fun h => hkeeps fun i hi => (hclasses i).equal (hall h i hi)
  case divs =>
    intro hdivs
    have hfound : machine.found.2.cpu.st = machine.checked.cpu.st :=
      (Cpu.accessStable_of_st (· = machine.checked.cpu.st)).machine.found rfl
    rw [Machine.worked_of_executes hdivs nofun]
    exact Exec.divs_leads machine.found.1.opcode _ machine.found.2 hfound

/-- Before an X whose operand is a signed division by zero, with all outcomes set but the overflow,
and overflows that interrupt. -/
def Machine.beforeOverflow : Machine FlatBus :=
  let program := (Memory.zero.pokeWord 0x0200 0x0481).pokeWord 0x0102 0x0182
  let new : Machine FlatBus := ⟨.ofConfig Variant.tms9995.config, { memory := program }⟩
  { new with cpu := ((new.cpu.setWp 0x0100).setPc 0x0200).setSt 0xF420 }

theorem Machine.beforeOverflow_reachable : beforeOverflow.Reachable Variant.tms9995.config := by
  let new : Machine FlatBus := ⟨.ofConfig Variant.tms9995.config, beforeOverflow.bus⟩
  have hnew : new.Reachable Variant.tms9995.config := .create
  exact hnew.place 0x0100 0x0200 0xF420

/-- The division that X leads to sets the overflow bit and changes no other. -/
theorem status_changes_by_class_through_x :
    let machine := Machine.beforeOverflow
    machine.executes = some .divs ∧ ¬Instruction.divs.LoadsStatus ∧
      machine.checked.cpu.st = 0xF420 ∧ (Exec.iterate 100 machine).2.cpu.st = 0xFC20 := by
  intro machine
  have hexecutes : machine.executes = some .divs := by decide +kernel
  have hload : ¬Instruction.divs.LoadsStatus := by simp [Instruction.LoadsStatus]
  have hframe := status_changes_by_class machine 100 fun instruction hinstruction => by
    rw [hexecutes] at hinstruction
    exact Option.some.inj hinstruction ▸ hload
  have hst : machine.checked.cpu.st = 0xF420 := by decide +kernel
  refine ⟨hexecutes, hload, hst, ?_⟩
  rw [hframe.divs hexecutes (by decide +kernel), hst]
  rfl

end TmsCores.Tms9900
